import Mathlib.Data.List.Forall2

/-!
# Items of which each may fail

Keys are put together from cells, cells are made of values, and candidates get their keys one by
one; the first item that fails is the last one that is looked at.  What comes out of such a
traversal is known from its items: the results stand beside the items if none of them fails, and
otherwise the fault is that of the first item that does.

## Main definitions

* `Traversal.FailsFirst`: the fault of the first item that fails.

## Main statements

* `Traversal.mapM_eq_ok_iff`, `Traversal.mapM_eq_error_iff`: the results and the fault.
* `Traversal.exists_mapM_eq_ok_iff`: there are results if and only if no item fails.
* `Traversal.mem_iff_of_mapM`: the results come from the items.
-/

namespace RingScan.Traversal

variable {ε α β : Type} {f : α → Except ε β} {item : α} {items : List α} {results : List β}
  {fault : ε}

/-! ### Results that may be missing -/

/-- Either there is a result or there is a fault. -/
theorem exists_error_iff {x : Except ε α} : (∃ fault, x = .error fault) ↔ ¬ ∃ a, x = .ok a := by
  cases x with
  | error fault => exact iff_of_true ⟨fault, rfl⟩ nofun
  | ok a => exact iff_of_false nofun (not_not_intro ⟨a, rfl⟩)

theorem map_eq_ok_iff {x : Except ε α} {g : α → β} {b : β} :
    x.map g = .ok b ↔ ∃ a, x = .ok a ∧ g a = b := by
  cases x with
  | error fault => exact iff_of_false nofun nofun
  | ok a => simp only [Except.map, Except.ok.injEq, exists_eq_left']

theorem map_eq_error_iff {x : Except ε α} {g : α → β} :
    x.map g = .error fault ↔ x = .error fault := by
  cases x with
  | error other => simp only [Except.map, Except.error.injEq]
  | ok a => exact iff_of_false nofun nofun

theorem mapError_eq_ok_iff {ε' : Type} {x : Except ε α} {g : ε → ε'} {a : α} :
    x.mapError g = .ok a ↔ x = .ok a := by
  cases x with
  | error fault => exact iff_of_false nofun nofun
  | ok b => simp only [Except.mapError, Except.ok.injEq]

theorem mapError_eq_error_iff {ε' : Type} {x : Except ε α} {g : ε → ε'} {fault : ε'} :
    x.mapError g = .error fault ↔ ∃ cause, x = .error cause ∧ g cause = fault := by
  cases x with
  | error cause => simp only [Except.mapError, Except.error.injEq, exists_eq_left']
  | ok a => exact iff_of_false nofun nofun

theorem bind_eq_ok_iff {x : Except ε α} {g : α → Except ε β} {b : β} :
    (x >>= g) = .ok b ↔ ∃ a, x = .ok a ∧ g a = .ok b := by
  cases x with
  | error fault => exact iff_of_false nofun nofun
  | ok a => simp only [bind, Except.bind, Except.ok.injEq, exists_eq_left']

/-! ### Traversals -/

/-- The fault is that of the first item for which the function fails. -/
def FailsFirst (f : α → Except ε β) (items : List α) (fault : ε) : Prop :=
  ∃ before item after, items = before ++ item :: after ∧
    (∀ other ∈ before, ∃ result, f other = .ok result) ∧ f item = .error fault

theorem not_failsFirst_nil : ¬ FailsFirst f [] fault := by
  rintro ⟨before, item, after, hitems, -⟩
  exact List.append_ne_nil_of_right_ne_nil before (List.cons_ne_nil item after) hitems.symm

/-- Either the head of a list fails, or it does not and an item of the tail is the first to fail. -/
theorem failsFirst_cons_iff :
    FailsFirst f (item :: items) fault ↔
      f item = .error fault ∨ (∃ result, f item = .ok result) ∧ FailsFirst f items fault := by
  constructor
  · rintro ⟨before, other, after, hitems, hbefore, hother⟩
    cases before with
    | nil =>
      obtain ⟨rfl, -⟩ := List.cons.inj hitems
      exact Or.inl hother
    | cons first before =>
      obtain ⟨rfl, rfl⟩ := List.cons.inj hitems
      obtain ⟨hfirst, hbefore⟩ := List.forall_mem_cons.1 hbefore
      exact Or.inr ⟨hfirst, before, other, after, rfl, hbefore, hother⟩
  · rintro (hitem | ⟨hitem, before, other, after, rfl, hbefore, hother⟩)
    · exact ⟨[], item, items, rfl, fun _ hmem => absurd hmem List.not_mem_nil, hitem⟩
    · exact ⟨item :: before, other, after, rfl, List.forall_mem_cons.2 ⟨hitem, hbefore⟩, hother⟩

theorem mapM_cons_of_error (h : f item = .error fault) (items : List α) :
    (item :: items).mapM f = .error fault := by
  rw [List.mapM_cons, h]
  rfl

theorem mapM_cons_of_ok {result : β} (h : f item = .ok result) (items : List α) :
    (item :: items).mapM f = (items.mapM f).map (result :: ·) := by
  rw [List.mapM_cons, h]
  rfl

theorem mapM_congr {g : α → Except ε β} (h : ∀ item ∈ items, f item = g item) :
    items.mapM f = items.mapM g := by
  induction items with
  | nil => rfl
  | cons item items ih =>
    obtain ⟨hitem, hitems⟩ := List.forall_mem_cons.1 h
    rw [List.mapM_cons, List.mapM_cons, hitem, ih hitems]

/-- The results of a traversal stand beside its items. -/
theorem mapM_eq_ok_iff :
    items.mapM f = .ok results ↔
      List.Forall₂ (fun item result => f item = .ok result) items results := by
  induction items generalizing results with
  | nil =>
    rw [List.mapM_nil, List.forall₂_nil_left_iff]
    exact ⟨fun h => (Except.ok.inj h).symm, fun h => congrArg Except.ok h.symm⟩
  | cons item items ih =>
    rw [List.forall₂_cons_left_iff]
    cases hitem : f item with
    | error fault =>
      rw [mapM_cons_of_error hitem]
      exact iff_of_false nofun nofun
    | ok first =>
      rw [mapM_cons_of_ok hitem, map_eq_ok_iff]
      constructor
      · rintro ⟨rest, hrest, rfl⟩
        exact ⟨first, rest, rfl, ih.1 hrest, rfl⟩
      · rintro ⟨result, rest, hresult, hrest, rfl⟩
        cases hresult
        exact ⟨rest, ih.2 hrest, rfl⟩

/-- The fault of a traversal is that of the first item that fails. -/
theorem mapM_eq_error_iff : items.mapM f = .error fault ↔ FailsFirst f items fault := by
  induction items with
  | nil => exact iff_of_false nofun not_failsFirst_nil
  | cons item items ih =>
    rw [failsFirst_cons_iff]
    cases hitem : f item with
    | error other =>
      rw [mapM_cons_of_error hitem, or_iff_left (fun h => nomatch h.1), Except.error.injEq,
        Except.error.injEq]
    | ok result =>
      rw [mapM_cons_of_ok hitem, map_eq_error_iff, ih]
      exact ⟨fun h => Or.inr ⟨⟨result, rfl⟩, h⟩, fun h => (h.resolve_left nofun).2⟩

/-- There are results if and only if no item fails. -/
theorem exists_mapM_eq_ok_iff :
    (∃ results, items.mapM f = .ok results) ↔ ∀ item ∈ items, ∃ result, f item = .ok result := by
  induction items with
  | nil => exact iff_of_true ⟨[], rfl⟩ fun _ hmem => absurd hmem List.not_mem_nil
  | cons item items ih =>
    rw [List.forall_mem_cons, ← ih]
    cases hitem : f item with
    | error fault =>
      rw [mapM_cons_of_error hitem]
      exact iff_of_false nofun nofun
    | ok result =>
      simp only [mapM_cons_of_ok hitem, map_eq_ok_iff]
      constructor
      · rintro ⟨_, rest, hrest, -⟩
        exact ⟨⟨result, rfl⟩, rest, hrest⟩
      · rintro ⟨-, rest, hrest⟩
        exact ⟨result :: rest, rest, hrest, rfl⟩

/-- The results of a traversal come from its items. -/
theorem mem_iff_of_mapM (h : items.mapM f = .ok results) {result : β} :
    result ∈ results ↔ ∃ item ∈ items, f item = .ok result := by
  replace h := mapM_eq_ok_iff.1 h
  induction h with
  | nil => simp only [List.not_mem_nil, false_and, exists_false]
  | cons hitem _ ih =>
    simp only [List.mem_cons, exists_eq_or_imp, hitem, ih, Except.ok.injEq, @eq_comm _ result]

end RingScan.Traversal
