import StagedQuery.Plan.Build
import StagedQuery.Proofs.Plan.Nodes
import StagedQuery.Stage

/-!
# The tables of a tree

The tables that a tree scans are found by a walk that carries the list of those found so
far and adds a table at its end unless it is there. Whether there is a scan at all is found
by another walk, which stops at the first one.

The list that the first walk leaves behind is fixed by the nodes: it holds the tables that
they scan, in the order of their first scans (`StagedQuery.PlanTree.ListsScans`), and so no
table twice. The walk may begin anywhere, with whatever the nodes before it have left behind:
one more node keeps the list right for the nodes up to it
(`StagedQuery.PlanTree.ListsScans.next`), and so does any number of them. That the two walks
agree follows, since the list is empty exactly if no node scans
(`StagedQuery.PlanTree.tables_exact`).
-/

namespace StagedQuery

namespace Operator

variable {operator : Operator}

theorem scannedTable?_eq_some {table : String} :
    operator.scannedTable? = some table ↔ ∃ columns, operator = .tableScan table columns := by
  cases operator <;> simp [scannedTable?]

theorem isScan_eq_true : operator.isScan = true ↔ ∃ table, operator.scannedTable? = some table := by
  cases operator <;> simp [isScan, scannedTable?]

end Operator

namespace PlanTree

/-! ### First scans -/

/-- How many nodes stand before the first one that scans the table; if there is none, how
many nodes there are. -/
def firstScan (nodes : List PlanTree) (table : String) : Nat :=
  nodes.findIdx fun node => node.operator.scannedTable? = some table

variable {nodes : List PlanTree} {tables : List String}

theorem firstScan_lt_length {table : String} : firstScan nodes table < nodes.length ↔
    ∃ node ∈ nodes, node.operator.scannedTable? = some table := by
  rw [firstScan, List.findIdx_lt_length]
  simp only [decide_eq_true_eq]

/-- Nodes behind a scan of the table do not change where its first scan is. -/
theorem firstScan_append {table : String} (more : List PlanTree)
    (h : firstScan nodes table < nodes.length) :
    firstScan (nodes ++ more) table = firstScan nodes table := by
  rw [firstScan, List.findIdx_append]
  exact if_pos h

/-- The first scan of a table that no node scans is behind all of them. -/
theorem length_le_firstScan_append {table : String} (more : List PlanTree)
    (h : ¬firstScan nodes table < nodes.length) :
    nodes.length ≤ firstScan (nodes ++ more) table := by
  rw [firstScan, List.findIdx_append]
  exact (if_neg h).symm ▸ Nat.le_add_left _ _

/-! ### Lists of the scans of some nodes -/

/-- **A list names the tables that some nodes scan**, in the order of their first scans. -/
structure ListsScans (nodes : List PlanTree) (tables : List String) : Prop where
  /-- The tables are those that the nodes scan. -/
  mem_iff : ∀ table, table ∈ tables ↔ ∃ node ∈ nodes, node.operator.scannedTable? = some table
  /-- A table whose first scan comes earlier stands earlier. -/
  ordered : tables.Pairwise fun a b => firstScan nodes a < firstScan nodes b

namespace ListsScans

theorem nil : ListsScans [] [] := ⟨fun _ => by simp, .nil⟩

/-- No table is named twice. -/
theorem nodup (h : ListsScans nodes tables) : tables.Nodup := by
  refine h.ordered.imp fun hlt heq => ?_
  rw [heq] at hlt
  exact Nat.lt_irrefl _ hlt

theorem firstScan_lt (h : ListsScans nodes tables) {table : String} (hmem : table ∈ tables) :
    firstScan nodes table < nodes.length :=
  firstScan_lt_length.mpr ((h.mem_iff table).mp hmem)

/-- Where the tables listed stand among the nodes is not changed by one more node. -/
theorem ordered_append (h : ListsScans nodes tables) (more : List PlanTree) :
    tables.Pairwise fun a b => firstScan (nodes ++ more) a < firstScan (nodes ++ more) b := by
  refine h.ordered.imp_of_mem fun ha hb hab => ?_
  rwa [firstScan_append more (h.firstScan_lt ha), firstScan_append more (h.firstScan_lt hb)]

/-- **One more node** adds the table that it scans, unless it is listed. -/
theorem next (h : ListsScans nodes tables) (node : PlanTree) :
    ListsScans (nodes ++ [node])
      (node.operator.scannedTable?.elim tables (addTable tables)) := by
  have hmem (table : String) : (∃ other ∈ nodes ++ [node],
      other.operator.scannedTable? = some table) ↔
        table ∈ tables ∨ node.operator.scannedTable? = some table := by
    simp only [List.mem_append, List.mem_singleton, or_and_right, exists_or, exists_eq_left,
      h.mem_iff]
  cases hscan : node.operator.scannedTable? with
  | none =>
    refine ⟨fun table => ?_, h.ordered_append _⟩
    rw [hmem, hscan, Option.elim_none]
    exact (or_iff_left nofun).symm
  | some table =>
    rw [Option.elim_some, addTable]
    split_ifs with hfound
    · refine ⟨fun other => ?_, h.ordered_append _⟩
      rw [hmem, hscan, Option.some.injEq]
      exact (or_iff_left_of_imp fun heq => heq ▸ hfound).symm
    · refine ⟨fun other => ?_, List.pairwise_append.mpr
        ⟨h.ordered_append _, List.pairwise_singleton _ _, fun a ha b hb => ?_⟩⟩
      · rw [hmem, hscan, Option.some.injEq, List.mem_append, List.mem_singleton,
          eq_comm (a := other)]
      · -- the new table is first scanned by the new node
        obtain rfl := List.mem_singleton.mp hb
        have hnew : ¬firstScan nodes b < nodes.length := fun hlt =>
          hfound ((h.mem_iff b).mpr (firstScan_lt_length.mp hlt))
        rw [firstScan_append _ (h.firstScan_lt ha)]
        exact Nat.lt_of_lt_of_le (h.firstScan_lt ha) (length_le_firstScan_append _ hnew)

/-- **A run over more nodes** adds the tables that they scan. -/
theorem run (h : ListsScans nodes tables) (more : List PlanTree) :
    ListsScans (nodes ++ more)
      ((more.filterMap (·.operator.scannedTable?)).foldl addTable tables) := by
  induction more generalizing nodes tables with
  | nil => rwa [List.append_nil]
  | cons node rest ih =>
    have hrest := ih (h.next node)
    rw [List.append_assoc, List.singleton_append] at hrest
    rw [List.filterMap_cons]
    cases hscan : node.operator.scannedTable? <;> rwa [hscan] at hrest

end ListsScans

/-! ### The tables of a tree -/

theorem listsScans_tables (tree : PlanTree) : ListsScans tree.nodes tree.tables := by
  rw [tables, addTables_eq]
  exact ListsScans.nil.run tree.nodes

/-- The tables of a tree are those that its nodes scan. -/
theorem mem_tables {tree : PlanTree} {table : String} :
    table ∈ tree.tables ↔
      ∃ node ∈ tree.nodes, ∃ columns, node.operator = .tableScan table columns := by
  rw [tree.listsScans_tables.mem_iff]
  simp only [Operator.scannedTable?_eq_some]

/-- A tree has a scan exactly if it has a table. -/
theorem hasScan_iff {tree : PlanTree} : tree.hasScan = true ↔ ∃ table, table ∈ tree.tables := by
  rw [hasScan_eq, List.any_eq_true]
  simp only [Operator.isScan_eq_true, tree.listsScans_tables.mem_iff]
  constructor
  · rintro ⟨node, hnode, table, hscan⟩
    exact ⟨table, node, hnode, hscan⟩
  · rintro ⟨table, node, hnode, hscan⟩
    exact ⟨node, hnode, table, hscan⟩

/-- **The tables of a tree are exactly those that it scans**, each once, by their first scans
in pre-order. There is a table exactly if there is a scan, and so a stage that counts as a scan
has one to be placed by. -/
theorem tables_exact (tree : PlanTree) :
    tree.tables.Nodup ∧
      (∀ table, table ∈ tree.tables ↔
        ∃ node ∈ tree.nodes, ∃ columns, node.operator = .tableScan table columns) ∧
      (tree.tables.Pairwise fun a b => firstScan tree.nodes a < firstScan tree.nodes b) ∧
      (tree.tables ≠ [] ↔ tree.hasScan = true) ∧
      ∀ id, (Stage.mk id tree).isScan = true ↔ tree.tables ≠ [] := by
  have hscan : tree.tables ≠ [] ↔ tree.hasScan = true := by
    rw [hasScan_iff, ne_eq, List.eq_nil_iff_forall_not_mem, not_forall_not]
  exact ⟨tree.listsScans_tables.nodup, fun _ => mem_tables, tree.listsScans_tables.ordered, hscan,
    fun _ => hscan.symm⟩

/-- A table is named where it is scanned first, also by a scan that has inputs. -/
example : (PlanTree.join .inner [] (.tableScan "b" [])
    (.setOperation .union true
      [.unplaced (.tableScan "a" []) [.tableScan "c" []], .tableScan "b" []])).tables =
    ["b", "a", "c"] := by decide

end PlanTree

end StagedQuery
