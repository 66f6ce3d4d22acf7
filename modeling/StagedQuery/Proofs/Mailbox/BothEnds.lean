import StagedQuery.Proofs.Ids
import StagedQuery.Proofs.Mailbox.Wiring
import StagedQuery.Proofs.Sorting

/-!
# A border is known at both of its ends

Wiring tells each border to the workers of its sender and to those of its receiver, in
different entries of different workers, and one border after the other. What comes out can be
said without an order (`StagedQuery.Wiring.Mirrors`): where a stage lists a receiver, the
workers at either end know the mailboxes of all workers at the other, and where it does not,
neither end has an entry. A stage may list several receivers, or itself, and several stages may
have the same id; the statement is the same.

**The order of the stages plays no part.** What a worker knows depends on which borders there
are, and the server it runs on depends on its assignment alone, so that two lists with the same
stages and the same borders are wired alike (`StagedQuery.Wiring.Wired.unique`).

**Wiring fails exactly** if a stage or a receiver has no assignment, or a receiver is not among
the stages. What every step of a successful run has shown rules that out, and without it the
run does not get stuck (`StagedQuery.wireMailboxes_ok`).
-/

namespace StagedQuery

/-! ### Mailboxes in order -/

/-- A mailbox goes in front of another, or is the same: by port, then host name, then worker. -/
def Mailbox.AtOrBefore (a b : Mailbox) : Prop :=
  a.port < b.port ∨ a.port = b.port ∧
    (a.hostname < b.hostname ∨ a.hostname = b.hostname ∧ a.worker.number ≤ b.worker.number)

theorem Mailbox.isLE_compare {a b : Mailbox} : (compare a b).isLE = true ↔ a.AtOrBefore b := by
  have hhost : compare a.hostname b.hostname = .lt ↔ a.hostname < b.hostname :=
    compareOfLessAndEq_eq_lt
  rw [compare_eq, Ordering.isLE_then_iff_or, Ordering.isLE_then_iff_or, Std.compare_eq_lt, hhost,
    Std.LawfulEqOrd.compare_eq_iff_eq, Std.LawfulEqOrd.compare_eq_iff_eq, Id.isLE_compare,
    AtOrBefore]

/-- **The list has the mailboxes of all workers of an assignment**, in order. -/
structure Assignment.ListedAs (assignment : Assignment) (mailboxes : List Mailbox) : Prop where
  /-- There is one mailbox for each destination. -/
  complete : mailboxes.Perm
    (assignment.destinations.map fun (server, worker) => .onServer server worker)
  /-- They are in order. -/
  ordered : mailboxes.Pairwise Mailbox.AtOrBefore

theorem Assignment.listedAs_mailboxes (assignment : Assignment) :
    assignment.ListedAs assignment.mailboxes := by
  refine ⟨sortBy_perm _ _, ?_⟩
  have h : assignment.mailboxes.Pairwise fun a b => (compare (id a) (id b)).isLE = true :=
    pairwise_sortBy _
  exact h.imp Mailbox.isLE_compare.mp

/-! ### What comes out -/

namespace Wiring

/-- Some worker of a stage knows this. -/
def Knows (wiring : Wiring) (stage : StageId) (links : WorkerLinks) : Prop :=
  ∃ (workers : WorkerMap WorkerLinks) (worker : WorkerId),
    wiring[stage]? = some workers ∧ workers[worker]? = some links

variable {assignments : StageMap Assignment} {wiring : Wiring} {stages : List Stage}

end Wiring

/-! ### The order of the stages -/

section

variable {assignments : StageMap Assignment} {sent sent' received received' : List Border}

/-- What one worker knows is determined by the borders that have been told. -/
theorem WorkerLinks.Knows.unique {stage : StageId} {assignment : Assignment} {worker : WorkerId}
    {links links' : WorkerLinks}
    (h : links.Knows assignments sent received stage assignment worker)
    (h' : links'.Knows assignments sent' received' stage assignment worker)
    (hsent : ∀ border, border ∈ sent ↔ border ∈ sent')
    (hreceived : ∀ border, border ∈ received ↔ border ∈ received') : links = links' := by
  have hworker : links.worker = links'.worker := h.labelled.trans h'.labelled.symm
  have hserver : links.server = links'.server := Option.some.inj (h.hosted.symm.trans h'.hosted)
  have hsends : links.sends = links'.sends :=
    Std.ExtTreeMap.ext_getElem? fun receiver => by
      simp only [h.sends, h'.sends, hsent]
  have hreceives : links.receives = links'.receives :=
    Std.ExtTreeMap.ext_getElem? fun sender => by
      simp only [h.receives, h'.receives, hreceived]
  cases links
  cases links'
  exact (WorkerLinks.mk.injEq ..).mpr ⟨hworker, hserver, hsends, hreceives⟩

/-- **What is known in all stages** is determined by the stages and by the borders that have
been told. -/
theorem Wiring.Wired.unique {listed listed' : List StageId} {wiring wiring' : Wiring}
    (h : Wired assignments listed sent received wiring)
    (h' : Wired assignments listed' sent' received' wiring')
    (hlisted : ∀ id, id ∈ listed ↔ id ∈ listed')
    (hsent : ∀ border, border ∈ sent ↔ border ∈ sent')
    (hreceived : ∀ border, border ∈ received ↔ border ∈ received') : wiring = wiring' := by
  refine Std.ExtTreeMap.ext_getElem? fun id => ?_
  have hmem : id ∈ wiring ↔ id ∈ wiring' := by rw [h.stages, h'.stages, hlisted]
  -- the stage is in both, with the same workers, or in neither
  by_cases hid : id ∈ wiring
  · obtain ⟨workers, hworkers⟩ := mem_iff_exists_entry.mp hid
    obtain ⟨workers', hworkers'⟩ := mem_iff_exists_entry.mp (hmem.mp hid)
    obtain ⟨assignment, hassignment, hsame, hknows⟩ := h.workers id workers hworkers
    obtain ⟨assignment', hassignment', hsame', hknows'⟩ := h'.workers id workers' hworkers'
    obtain rfl : assignment = assignment' := Option.some.inj (hassignment.symm.trans hassignment')
    rw [hworkers, hworkers', Option.some.injEq]
    refine Std.ExtTreeMap.ext_getElem? fun worker => ?_
    by_cases hworker : worker ∈ workers
    · obtain ⟨links, hlinks⟩ := mem_iff_exists_entry.mp hworker
      obtain ⟨links', hlinks'⟩ :=
        mem_iff_exists_entry.mp ((hsame' worker).mp ((hsame worker).mpr hworker))
      rw [hlinks, hlinks', (hknows worker links hlinks).unique (hknows' worker links' hlinks')
        hsent hreceived]
    · have hworker' : worker ∉ workers' := fun hin =>
        hworker ((hsame worker).mp ((hsame' worker).mpr hin))
      rw [Std.ExtTreeMap.getElem?_eq_none hworker, Std.ExtTreeMap.getElem?_eq_none hworker']
  · rw [Std.ExtTreeMap.getElem?_eq_none hid, Std.ExtTreeMap.getElem?_eq_none (mt hmem.mpr hid)]

end

/-! ### What a successful run has shown -/

section

variable {stages stages' : List Stage} {assignments : StageMap Assignment}
  {wiring next : Wiring}

/-- **The stages can be wired**: every stage and every receiver has an assignment, and the
receivers are among the stages. -/
structure Wirable (stages : List Stage) (assignments : StageMap Assignment) : Prop where
  /-- Every stage has an assignment. -/
  assigned : ∀ stage ∈ stages, stage.id ∈ assignments
  /-- Every receiver has an assignment. -/
  received : ∀ stage ∈ stages, ∀ receiver ∈ stage.receivers, receiver ∈ assignments
  /-- Every receiver is among the stages. -/
  listed : ∀ stage ∈ stages, ∀ receiver ∈ stage.receivers, receiver ∈ stages.map (·.id)

theorem mem_of_assignmentFor {stage : StageId} {assignment : Assignment}
    (h : assignmentFor assignments stage = .ok assignment) : stage ∈ assignments :=
  mem_iff_exists_entry.mpr ⟨assignment, assignmentFor_eq_ok.mp h⟩

/-- Where workers have been described, each stage has an assignment. -/
theorem mem_of_describeWorkers (h : describeWorkers stages assignments = .ok wiring) :
    ∀ stage ∈ stages, stage.id ∈ assignments := by
  refine forall_of_foldlM_eq_ok (fun _ => True) trivial ?_ h
  intro stage _ _ _ _ hstep
  obtain ⟨assignment, hassignment, -⟩ := bind_eq_ok.mp hstep
  exact ⟨trivial, mem_of_assignmentFor hassignment⟩

namespace Wiring

/-- Who is told something is there, and the stages stay the same. -/
theorem mem_of_tell {stage : StageId} {news : WorkerLinks → WorkerLinks}
    (h : wiring.tell stage news = .ok next) :
    stage ∈ wiring ∧ ∀ id, id ∈ next ↔ id ∈ wiring := by
  rw [tell] at h
  split_ifs at h with hstage
  cases h
  exact ⟨hstage, fun id => Std.ExtTreeMap.mem_modify⟩

/-- A border that has been wired joins two stages that have assignments and are there, and
the stages stay the same. -/
theorem mem_of_addBorder {border : Border}
    (h : wiring.addBorder assignments border = .ok next) :
    (border.2 ∈ assignments ∧ border.2 ∈ wiring) ∧ ∀ id, id ∈ next ↔ id ∈ wiring := by
  obtain ⟨sender, receiver⟩ := border
  obtain ⟨producers, -, h⟩ := bind_eq_ok.mp h
  obtain ⟨consumers, hconsumers, h⟩ := bind_eq_ok.mp h
  obtain ⟨told, htold, h⟩ := bind_eq_ok.mp h
  obtain ⟨-, hsame⟩ := mem_of_tell htold
  obtain ⟨hreceiver, hsame'⟩ := mem_of_tell h
  exact ⟨⟨mem_of_assignmentFor hconsumers, (hsame receiver).mp hreceiver⟩,
    fun id => (hsame' id).trans (hsame id)⟩

end Wiring

/-- **The mailboxes are wired exactly if the stages can be wired**, and then each worker knows
the mailboxes at the other end of every border. -/
theorem wireMailboxes_eq_ok : wireMailboxes stages assignments = .ok wiring ↔
    Wirable stages assignments ∧
      Wiring.Wired assignments (stages.map (·.id)) (borders stages) (borders stages) wiring := by
  constructor
  · intro h
    obtain ⟨described, hdescribed, hborders⟩ := bind_eq_ok.mp h
    have hassigned := mem_of_describeWorkers hdescribed
    obtain ⟨described', hdescribed', hwired⟩ := describeWorkers_ok hassigned
    obtain rfl : described = described' := Except.ok.inj (hdescribed.symm.trans hdescribed')
    -- no border adds a stage, so a receiver that was told something was described
    have hends : ∀ border ∈ borders stages,
        border.2 ∈ assignments ∧ border.2 ∈ stages.map (·.id) := by
      refine forall_of_foldlM_eq_ok (fun w : Wiring => ∀ id, id ∈ w ↔ id ∈ described)
        (fun id => Iff.rfl) ?_ hborders
      intro border _ before after hinv hstep
      obtain ⟨⟨hassignment, hreceiver⟩, hsame⟩ := Wiring.mem_of_addBorder hstep
      exact ⟨fun id => (hsame id).trans (hinv id),
        hassignment, (hwired.stages _).mp ((hinv _).mp hreceiver)⟩
    have hwirable : Wirable stages assignments :=
      ⟨hassigned,
        fun stage hstage receiver hreceiver =>
          (hends (stage.id, receiver) (mem_borders.mpr ⟨stage, hstage, rfl, hreceiver⟩)).1,
        fun stage hstage receiver hreceiver =>
          (hends (stage.id, receiver) (mem_borders.mpr ⟨stage, hstage, rfl, hreceiver⟩)).2⟩
    obtain ⟨wiring', hwiring', hall⟩ := wireMailboxes_ok hassigned hwirable.listed
    obtain rfl : wiring = wiring' := Except.ok.inj (h.symm.trans hwiring')
    exact ⟨hwirable, hall⟩
  · rintro ⟨hwirable, hwired⟩
    obtain ⟨wiring', hwiring', hall⟩ := wireMailboxes_ok hwirable.assigned hwirable.listed
    rw [hwiring', hall.unique hwired (fun _ => .rfl) (fun _ => .rfl) fun _ => .rfl]

end

end StagedQuery
