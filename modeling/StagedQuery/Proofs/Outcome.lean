import Mathlib.Data.List.Forall2
import StagedQuery.Error

/-!
# When a chain of steps succeeds

The steps of the library answer with an `Except`, and a chain of them is written
in `do` notation. The lemmas here say when such a chain succeeds, one form of
chain at a time: a step after a step, a step for every item of a list, a step for
every item whose results are collected, and a state carried through a list.

A chain succeeds exactly if each of its steps does. Of its failures the lemmas say where
they can come from, and no more: which one wins when several steps would fail is settled
by the definitions. Two runs of one chain can still be compared, failures and all: they **agree**
if each step of the one agrees with that of the other (`StagedQuery.Agree`).
-/

namespace StagedQuery

/-! ### Items side by side with their results -/

section

variable {α β : Type} {R : α → β → Prop} {items : List α} {results : List β}

theorem exists_forall₂ (h : ∀ a ∈ items, ∃ b, R a b) : ∃ results, List.Forall₂ R items results := by
  induction items with
  | nil => exact ⟨[], .nil⟩
  | cons a rest ih =>
    obtain ⟨b, hb⟩ := h a List.mem_cons_self
    obtain ⟨bs, hbs⟩ := ih fun c hc => h c (List.mem_cons_of_mem a hc)
    exact ⟨b :: bs, .cons hb hbs⟩

theorem result_of_item (h : List.Forall₂ R items results) : ∀ a ∈ items, ∃ b ∈ results, R a b := by
  induction h with
  | nil => exact fun _ h => nomatch h
  | cons hab _ ih =>
    refine List.forall_mem_cons.mpr ⟨⟨_, List.mem_cons_self, hab⟩, fun a ha => ?_⟩
    obtain ⟨b, hb, hR⟩ := ih a ha
    exact ⟨b, List.mem_cons_of_mem _ hb, hR⟩

theorem item_of_result (h : List.Forall₂ R items results) : ∀ b ∈ results, ∃ a ∈ items, R a b :=
  result_of_item (R := fun b a => R a b) h.flip

end

/-! ### When there is success -/

section

variable {ε α β σ : Type}

theorem toOption_eq_some {x : Except ε α} {a : α} : x.toOption = some a ↔ x = .ok a := by
  cases x with
  | ok b => exact ⟨fun h => congrArg _ (Option.some.inj h), fun h => by cases h; rfl⟩
  | error e => exact iff_of_false nofun nofun

/-- A step after another succeeds exactly if both do. -/
theorem bind_eq_ok {x : Except ε α} {f : α → Except ε β} {b : β} :
    (x >>= f) = .ok b ↔ ∃ a, x = .ok a ∧ f a = .ok b := by
  cases x with
  | ok a => exact ⟨fun h => ⟨a, rfl, h⟩, fun ⟨_, ha, h⟩ => Except.ok.inj ha ▸ h⟩
  | error e => exact ⟨nofun, fun ⟨_, ha, _⟩ => nomatch ha⟩

/-- A step after another fails exactly if the first one does, or the second one
does with what the first one gave. -/
theorem bind_eq_error {x : Except ε α} {f : α → Except ε β} {e : ε} :
    (x >>= f) = .error e ↔ x = .error e ∨ ∃ a, x = .ok a ∧ f a = .error e := by
  cases x with
  | ok a => exact ⟨fun h => .inr ⟨a, rfl, h⟩, fun h => by
      rcases h with h | ⟨_, ha, h⟩
      · exact nomatch h
      · exact Except.ok.inj ha ▸ h⟩
  | error e' => exact ⟨fun h => .inl (congrArg _ (Except.error.inj h)), fun h => by
      rcases h with h | ⟨_, ha, _⟩
      · exact congrArg _ (Except.error.inj h)
      · exact nomatch ha⟩

theorem pure_eq_ok {a b : α} : (pure a : Except ε α) = .ok b ↔ a = b :=
  ⟨Except.ok.inj, congrArg Except.ok⟩

theorem map_eq_ok {x : Except ε α} {f : α → β} {b : β} :
    x.map f = .ok b ↔ ∃ a, x = .ok a ∧ f a = b := by
  cases x with
  | ok a => exact ⟨fun h => ⟨a, rfl, Except.ok.inj h⟩, fun ⟨_, ha, h⟩ => by
      cases ha
      exact congrArg _ h⟩
  | error e => exact ⟨nofun, fun ⟨_, ha, _⟩ => nomatch ha⟩

theorem map_eq_error {x : Except ε α} {f : α → β} {e : ε} : x.map f = .error e ↔ x = .error e := by
  cases x with
  | ok a => exact iff_of_false nofun nofun
  | error e' =>
    exact ⟨fun h => congrArg _ (Except.error.inj h), fun h => congrArg _ (Except.error.inj h)⟩

/-- A check that fails where `p` does not hold succeeds exactly where it does. -/
theorem ite_error_eq_ok {p : Prop} [Decidable p] {e : ε} {x : Except ε α} {a : α} :
    (if p then .error e else x) = .ok a ↔ ¬p ∧ x = .ok a := by
  by_cases h : p <;> simp [h]

/-- A check of every item of a list succeeds exactly if each item passes. -/
theorem forM_eq_ok {items : List α} {f : α → Except ε Unit} :
    items.forM f = .ok () ↔ ∀ a ∈ items, f a = .ok () := by
  induction items with
  | nil => exact iff_of_true rfl fun _ h => nomatch h
  | cons a rest ih =>
    rw [List.forall_mem_cons, ← ih]
    exact bind_eq_ok.trans ⟨fun ⟨(), ha, h⟩ => ⟨ha, h⟩, fun ⟨ha, h⟩ => ⟨(), ha, h⟩⟩

/-- A check of every item of a list fails with what it says of the first item that does not
pass. -/
theorem forM_eq_error {items : List α} {f : α → Except ε Unit} {e : ε} :
    items.forM f = .error e ↔ ∃ before a after, items = before ++ a :: after ∧
      (∀ b ∈ before, f b = .ok ()) ∧ f a = .error e := by
  constructor
  · intro h
    induction items with
    | nil => exact nomatch h
    | cons a rest ih =>
      rcases bind_eq_error.mp h with ha | ⟨⟨⟩, ha, hrest⟩
      · exact ⟨[], a, rest, rfl, List.forall_mem_nil _, ha⟩
      · obtain ⟨before, b, after, rfl, hbefore, hb⟩ := ih hrest
        exact ⟨a :: before, b, after, rfl, List.forall_mem_cons.mpr ⟨ha, hbefore⟩, hb⟩
  · rintro ⟨before, a, after, rfl, hbefore, ha⟩
    rw [List.forM_eq_forM, List.forM_append]
    exact bind_eq_error.mpr (.inr ⟨(), forM_eq_ok.mpr hbefore, bind_eq_error.mpr (.inl ha)⟩)

/-- A check of every item of a list fails with what it says of one of them. -/
theorem exists_of_forM_eq_error {items : List α} {f : α → Except ε Unit} {e : ε}
    (h : items.forM f = .error e) : ∃ a ∈ items, f a = .error e := by
  obtain ⟨before, a, after, rfl, -, ha⟩ := forM_eq_error.mp h
  exact ⟨a, List.mem_append_right _ List.mem_cons_self, ha⟩

/-- Collecting a result for every item succeeds exactly if each item gives one,
and then the results stand in the order of the items. -/
theorem mapM_eq_ok {items : List α} {f : α → Except ε β} {results : List β} :
    items.mapM f = .ok results ↔ List.Forall₂ (fun a b => f a = .ok b) items results := by
  induction items generalizing results with
  | nil =>
    rw [List.mapM_nil, pure_eq_ok, List.forall₂_nil_left_iff]
    exact eq_comm
  | cons a rest ih =>
    rw [List.mapM_cons, bind_eq_ok, List.forall₂_cons_left_iff]
    constructor
    · rintro ⟨b, hb, h⟩
      obtain ⟨bs, hbs, h⟩ := bind_eq_ok.mp h
      exact ⟨b, bs, hb, ih.mp hbs, (pure_eq_ok.mp h).symm⟩
    · rintro ⟨b, bs, hb, hbs, rfl⟩
      exact ⟨b, hb, bind_eq_ok.mpr ⟨bs, ih.mpr hbs, rfl⟩⟩

/-- Where every item gives a result, the results can be collected. -/
theorem exists_mapM_eq_ok {items : List α} {f : α → Except ε β}
    (h : ∀ a ∈ items, ∃ b, f a = .ok b) : ∃ results, items.mapM f = .ok results := by
  obtain ⟨results, hresults⟩ := exists_forall₂ h
  exact ⟨results, mapM_eq_ok.mpr hresults⟩

/-- Collecting the results of a step that succeeds at least where another does, with what
that one gives. -/
theorem mapM_mono {items : List α} {f g : α → Except ε β} {results : List β}
    (hfg : ∀ a ∈ items, ∀ b, f a = .ok b → g a = .ok b) (h : items.mapM f = .ok results) :
    items.mapM g = .ok results := by
  refine mapM_eq_ok.mpr (List.forall₂_iff_get.mpr ?_)
  obtain ⟨hlength, hresults⟩ := List.forall₂_iff_get.mp (mapM_eq_ok.mp h)
  exact ⟨hlength, fun i hi hi' => hfg _ (List.get_mem _ _) _ (hresults i hi hi')⟩

/-- A state carried through a list gets past its first item and then through the
rest. -/
theorem foldlM_cons_eq_ok {f : σ → α → Except ε σ} {a : α} {rest : List α} {s t : σ} :
    (a :: rest).foldlM f s = .ok t ↔ ∃ u, f s a = .ok u ∧ rest.foldlM f u = .ok t := by
  rw [List.foldlM_cons]
  exact bind_eq_ok

/-- **A run that never gets stuck.** Where every step from a state with the
invariant succeeds and keeps it, the whole list is got through. The invariant
speaks of the items done so far. -/
theorem foldlM_ok_of_invariant {f : σ → α → Except ε σ} (inv : List α → σ → Prop)
    {items : List α} {s : σ} (start : inv [] s)
    (step : ∀ before, ∀ a ∈ items, ∀ s, inv before s →
      ∃ t, f s a = .ok t ∧ inv (before ++ [a]) t) :
    ∃ t, items.foldlM f s = .ok t ∧ inv items t := by
  -- the run is taken up in the middle, after the items of `finished`
  suffices ∀ (todo finished : List α) (s : σ), todo ⊆ items → inv finished s →
      ∃ t, todo.foldlM f s = .ok t ∧ inv (finished ++ todo) t from
    this items [] s (List.Subset.refl _) start
  intro todo
  induction todo with
  | nil =>
    intro finished s _ hs
    exact ⟨s, rfl, by rwa [List.append_nil]⟩
  | cons a rest ih =>
    intro finished s hsub hs
    obtain ⟨ha, hrest⟩ := List.cons_subset.mp hsub
    obtain ⟨u, hu, hinv⟩ := step finished a ha s hs
    obtain ⟨t, ht, hfinal⟩ := ih (finished ++ [a]) u hrest hinv
    exact ⟨t, foldlM_cons_eq_ok.mpr ⟨u, hu, ht⟩, by simpa using hfinal⟩

/-- **What every step of a run has shown**, where the steps keep an invariant. -/
theorem forall_of_foldlM_eq_ok {f : σ → α → Except ε σ} (inv : σ → Prop) {P : α → Prop}
    {items : List α} {s t : σ} (start : inv s)
    (step : ∀ a ∈ items, ∀ s t, inv s → f s a = .ok t → inv t ∧ P a)
    (h : items.foldlM f s = .ok t) : ∀ a ∈ items, P a := by
  induction items generalizing s with
  | nil => exact fun _ h => nomatch h
  | cons a rest ih =>
    obtain ⟨u, hu, hrest⟩ := foldlM_cons_eq_ok.mp h
    obtain ⟨hinv, ha⟩ := step a List.mem_cons_self s u start hu
    exact List.forall_mem_cons.mpr
      ⟨ha, ih hinv (fun b hb => step b (List.mem_cons_of_mem a hb)) hrest⟩

/-- A state that takes in a result for every item succeeds exactly if each item gives
one, and then it has taken in the results in the order of the items. -/
theorem foldlM_collect_eq_ok {f : α → Except ε β} {g : σ → α → β → σ} {items : List α} {s t : σ} :
    (items.foldlM (fun s a => f a >>= fun b => pure (g s a b)) s) = .ok t ↔
      ∃ results, List.Forall₂ (fun a b => f a = .ok b) items results ∧
        t = (items.zip results).foldl (fun s entry => g s entry.1 entry.2) s := by
  induction items generalizing s with
  | nil =>
    rw [List.foldlM_nil, pure_eq_ok]
    constructor
    · rintro rfl
      exact ⟨[], .nil, rfl⟩
    · rintro ⟨_, ⟨⟩, rfl⟩
      rfl
  | cons a rest ih =>
    rw [foldlM_cons_eq_ok]
    constructor
    · rintro ⟨u, hu, hrest⟩
      obtain ⟨b, hb, hu⟩ := bind_eq_ok.mp hu
      obtain ⟨bs, hbs, rfl⟩ := ih.mp hrest
      exact ⟨b :: bs, .cons hb hbs, by rw [← pure_eq_ok.mp hu]; rfl⟩
    · rintro ⟨_, h, rfl⟩
      cases h with
      | cons hb hbs => exact ⟨_, bind_eq_ok.mpr ⟨_, hb, rfl⟩, ih.mpr ⟨_, hbs, rfl⟩⟩

end

/-! ### Which failures there can be -/

section

variable {ε α β σ : Type} {P : ε → Prop}

/-- **A step fails in certain ways only.** -/
def FailsOnly (P : ε → Prop) (x : Except ε α) : Prop := ∀ e, x = .error e → P e

theorem failsOnly_ok (a : α) : FailsOnly P (.ok a : Except ε α) := fun _ h => nomatch h

theorem failsOnly_error {e : ε} (h : P e) : FailsOnly P (.error e : Except ε α) :=
  fun _ h' => Except.error.inj h' ▸ h

theorem FailsOnly.bind {x : Except ε α} {f : α → Except ε β} (hx : FailsOnly P x)
    (hf : ∀ a, FailsOnly P (f a)) : FailsOnly P (x >>= f) := by
  intro e he
  rcases bind_eq_error.mp he with h | ⟨a, -, h⟩
  · exact hx e h
  · exact hf a e h

theorem FailsOnly.mapM {f : α → Except ε β} (hf : ∀ a, FailsOnly P (f a)) (items : List α) :
    FailsOnly P (items.mapM f) := by
  induction items with
  | nil => exact failsOnly_ok _
  | cons a rest ih =>
    rw [List.mapM_cons]
    exact (hf a).bind fun b => ih.bind fun bs => failsOnly_ok _

theorem FailsOnly.foldlM {f : σ → α → Except ε σ} (hf : ∀ s a, FailsOnly P (f s a))
    (items : List α) (s : σ) : FailsOnly P (items.foldlM f s) := by
  induction items generalizing s with
  | nil => exact failsOnly_ok _
  | cons a rest ih =>
    rw [List.foldlM_cons]
    exact (hf s a).bind fun t => ih t

end

/-! ### Two runs side by side -/

section

variable {ε α β γ δ : Type} {R : α → β → Prop} {S : γ → δ → Prop}

/-- **Two outcomes agree**: both are answers that are related, or both are the same fault. -/
inductive Agree (R : α → β → Prop) : Except ε α → Except ε β → Prop
  | ok {a : α} {b : β} (related : R a b) : Agree R (.ok a) (.ok b)
  | error (fault : ε) : Agree R (.error fault) (.error fault)

/-- An outcome agrees with itself where each answer is related to itself. -/
theorem Agree.refl {R : α → α → Prop} (h : ∀ a, R a a) (x : Except ε α) : Agree R x x := by
  cases x with
  | ok a => exact .ok (h a)
  | error fault => exact .error fault

/-- Outcomes that agree on equal answers are equal. -/
theorem Agree.eq {x y : Except ε α} (h : Agree (· = ·) x y) : x = y := by
  cases h with
  | ok heq => rw [heq]
  | error fault => rfl

/-- Steps that agree, one after the other. -/
theorem Agree.bind {x : Except ε α} {y : Except ε β} {f : α → Except ε γ} {g : β → Except ε δ}
    (h : Agree R x y) (hnext : ∀ a b, R a b → Agree S (f a) (g b)) :
    Agree S (x >>= f) (y >>= g) := by
  cases h with
  | ok related => exact hnext _ _ related
  | error fault => exact .error fault

/-- Steps that agree on related items, collected over two lists. -/
theorem Agree.mapM {xs : List α} {ys : List β} {f : α → Except ε γ} {g : β → Except ε δ}
    (h : List.Forall₂ R xs ys) (hstep : ∀ a b, R a b → Agree S (f a) (g b)) :
    Agree (List.Forall₂ S) (xs.mapM f) (ys.mapM g) := by
  induction h with
  | nil => exact .ok .nil
  | cons hab _ ih =>
    rw [List.mapM_cons, List.mapM_cons]
    exact (hstep _ _ hab).bind fun c d hcd => ih.bind fun cs ds hrest => .ok (.cons hcd hrest)

end

end StagedQuery
