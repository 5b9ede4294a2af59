import Mathlib.Data.Finset.Card
import RingScan.Cluster.Checkout

/-!
# Checkouts in any order

Checkouts that share one cache take their steps in any order: between the look of one of them into
the cache and its offer to the cache, others may look, connect and offer.  A connection may then be
made in vain, but the cache stays sound.  A target keeps the connection that was offered for it
first, and every checkout that succeeds returns the connection that its target keeps.

## Main definitions

* `Desk.opening`: checkouts of which none has taken a step.
* `Desk.Move`: what the next step of a checkout can do.
* `Desk.offers`: the connections that are offered to the cache, in order.
* `Desk.calls`: the checkouts that connect, in order.

## Main statements

* `Desk.find?_follow`: a target keeps the connection that is offered for it first.
* `Desk.exists_refusal`: a checkout fails only if it is refused a connection itself.
* `Desk.follow_consistent`: the cache under any order of steps.
-/

namespace RingScan

/-- The targets that have a connection are those for which one is found. -/
theorem Cache.mem_targets_iff {ι : Type} {cache : Cache ι} {target : Target} :
    target ∈ cache.entries.map (·.1) ↔ (cache.find? target).isSome = true := by
  simp only [find?, Option.isSome_map, List.find?_isSome, decide_eq_true_eq, List.mem_map]

namespace Desk

variable {ω ι : Type} (connect : Target → ω → Except Causes ι × ω)

/-- Checkouts of which none has taken a step, and a cache without connections. -/
def opening (world : ω) (targets : List Target) : Desk ω ι :=
  ⟨world, ∅, targets.map fun target => (target, .waiting)⟩

/-- What the checkout at a position offers to the cache in its next step: a connection to its
target, if it holds one. -/
def offer? (desk : Desk ω ι) (i : ℕ) : Option (Target × ι) :=
  match desk.checkouts[i]? with
  | some (target, .holding connection) => some (target, connection)
  | _ => none

/-- The checkout at a position connects in its next step. -/
def connects (desk : Desk ω ι) (i : ℕ) : Bool :=
  match desk.checkouts[i]? with
  | some (_, .connecting) => true
  | _ => false

/-- What is offered to the cache, in order, while checkouts take their steps. -/
def offers : List ℕ → Desk ω ι → List (Target × ι)
  | [], _ => []
  | i :: positions, desk => (desk.offer? i).toList ++ offers positions (desk.advance connect i)

/-- The positions of the checkouts that connect, in order, while checkouts take their steps. -/
def calls : List ℕ → Desk ω ι → List ℕ
  | [], _ => []
  | i :: positions, desk =>
    if desk.connects i then i :: calls positions (desk.advance connect i)
    else calls positions (desk.advance connect i)

private theorem getElem?_set_of_some {α : Type} {entries : List α} {i : ℕ} {a : α}
    (h : entries[i]? = some a) (b : α) : (entries.set i b)[i]? = some b :=
  List.getElem?_set_self (List.getElem?_eq_some_iff.1 h).1

/-! ### One step -/

/-- What the next step of the checkout at a position can do to the desk. -/
inductive Move (desk : Desk ω ι) (i : ℕ) : Desk ω ι → Prop
  /-- There is no such checkout. -/
  | absent (h : desk.checkouts[i]? = none) : Move desk i desk
  /-- The target has a connection. -/
  | found {target : Target} {connection : ι} (h : desk.checkouts[i]? = some (target, .waiting))
      (hfind : desk.cache.find? target = some connection) :
      Move desk i { desk with
        checkouts := desk.checkouts.set i (target, .done (.ok connection)) }
  /-- The target has no connection. -/
  | missed {target : Target} (h : desk.checkouts[i]? = some (target, .waiting))
      (hfind : desk.cache.find? target = none) :
      Move desk i { desk with checkouts := desk.checkouts.set i (target, .connecting) }
  /-- A connection is made. -/
  | connected {target : Target} {connection : ι} {world : ω}
      (h : desk.checkouts[i]? = some (target, .connecting))
      (hconnect : connect target desk.world = (.ok connection, world)) :
      Move desk i { desk with
        world, checkouts := desk.checkouts.set i (target, .holding connection) }
  /-- A connection is refused. -/
  | refused {target : Target} {causes : Causes} {world : ω}
      (h : desk.checkouts[i]? = some (target, .connecting))
      (hconnect : connect target desk.world = (.error causes, world)) :
      Move desk i { desk with
        world, checkouts := desk.checkouts.set i (target, .done (.error causes)) }
  /-- A connection is offered. -/
  | offered {target : Target} {connection : ι}
      (h : desk.checkouts[i]? = some (target, .holding connection)) :
      Move desk i { desk with
        cache := (desk.cache.keep target connection).2,
        checkouts := desk.checkouts.set i
          (target, .done (.ok (desk.cache.keep target connection).1)) }
  /-- The checkout is over. -/
  | ended {target : Target} {result : Except Causes ι}
      (h : desk.checkouts[i]? = some (target, .done result)) : Move desk i desk

theorem move_advance (desk : Desk ω ι) (i : ℕ) : Move connect desk i (desk.advance connect i) := by
  rw [advance]
  cases h : desk.checkouts[i]? with
  | none => exact .absent h
  | some entry =>
    obtain ⟨target, checkout⟩ := entry
    cases checkout with
    | waiting =>
      cases hfind : desk.cache.find? target with
      | some connection =>
        simp only [Checkout.step, hfind]
        exact .found h hfind
      | none =>
        simp only [Checkout.step, hfind]
        exact .missed h hfind
    | connecting =>
      rcases hconnect : connect target desk.world with ⟨causes | connection, world⟩
      · simp only [Checkout.step, hconnect]
        exact .refused h hconnect
      · simp only [Checkout.step, hconnect]
        exact .connected h hconnect
    | holding connection => exact .offered h
    | done result =>
      have hset : desk.checkouts.set i (target, .done result) = desk.checkouts := by
        obtain ⟨hi, hget⟩ := List.getElem?_eq_some_iff.1 h
        rw [← hget, List.set_getElem_self]
      simp only [Checkout.step, hset]
      exact .ended h

variable {connect} {desk after : Desk ω ι} {i j : ℕ} {target : Target} {connection : ι}

/-- A step concerns one checkout. -/
theorem Move.getElem?_of_ne (h : Move connect desk i after) (hne : i ≠ j) :
    after.checkouts[j]? = desk.checkouts[j]? := by
  cases h with
  | absent => rfl
  | ended => rfl
  | found | missed | connected | refused | offered => exact List.getElem?_set_ne hne

/-- A step keeps what is in the cache and adds what it offers. -/
theorem Move.find?_eq (h : Move connect desk i after) (target : Target) :
    after.cache.find? target =
      (desk.cache.find? target).or ((desk.offer? i).toList.lookup target) := by
  cases h with
  | @offered other connection h =>
    rw [Cache.find?_keep, offer?, h, Option.toList_some, List.lookup_cons, List.lookup_nil]
    by_cases heq : other = target
    · rw [if_pos heq, heq, beq_self_eq_true]
    · rw [if_neg heq, beq_false_of_ne (Ne.symm heq)]
  | absent h | found h | missed h | connected h | refused h | ended h =>
    simp only [offer?, h, Option.toList_none, List.lookup_nil, Option.or_none]

theorem Move.find?_of_some (h : Move connect desk i after)
    (hfind : desk.cache.find? target = some connection) :
    after.cache.find? target = some connection := by
  rw [h.find?_eq, hfind, Option.some_or]

/-! ### Checkouts that succeed -/

/-- Every checkout that has succeeded has returned the connection that its target keeps. -/
def Settled (desk : Desk ω ι) : Prop :=
  ∀ (i : ℕ) (target : Target) (connection : ι),
    desk.checkouts[i]? = some (target, .done (.ok connection)) →
      desk.cache.find? target = some connection

theorem settled_opening (world : ω) (targets : List Target) :
    Settled (opening world targets : Desk ω ι) := by
  intro i target connection h
  simp [opening] at h

theorem Move.settled (h : Move connect desk i after) (hsettled : desk.Settled) :
    after.Settled := by
  intro j target connection hdone
  by_cases hne : i = j
  · subst hne
    cases h with
    | absent | ended => exact hsettled i target connection hdone
    | found h hfind =>
      cases (getElem?_set_of_some h _).symm.trans hdone
      exact hfind
    | missed h | connected h | refused h => cases (getElem?_set_of_some h _).symm.trans hdone
    | offered h =>
      cases (getElem?_set_of_some h _).symm.trans hdone
      exact Cache.find?_keep_self ..
  · rw [h.getElem?_of_ne hne] at hdone
    exact h.find?_of_some (hsettled j target connection hdone)

/-! ### Checkouts that are refused a connection -/

/-- A checkout that has failed after a step had failed before, or it was refused a connection in
this step. -/
theorem Move.refusal (h : Move connect desk i after) {causes : Causes}
    (hdone : after.checkouts[j]? = some (target, .done (.error causes))) :
    desk.checkouts[j]? = some (target, .done (.error causes)) ∨
      i = j ∧ desk.checkouts[j]? = some (target, .connecting) ∧
        (connect target desk.world).1 = .error causes := by
  by_cases hne : i = j
  · subst hne
    cases h with
    | absent | ended => exact Or.inl hdone
    | found h | missed h | connected h | offered h =>
      cases (getElem?_set_of_some h _).symm.trans hdone
    | refused h hconnect =>
      cases (getElem?_set_of_some h _).symm.trans hdone
      exact Or.inr ⟨rfl, h, congrArg Prod.fst hconnect⟩
  · exact Or.inl ((h.getElem?_of_ne hne).symm.trans hdone)

/-! ### Checkouts that find a connection -/

/-- A checkout has not taken a step while its target has a connection, or has returned it. -/
structure Served (desk : Desk ω ι) (i : ℕ) (target : Target) (connection : ι) : Prop where
  find?_eq : desk.cache.find? target = some connection
  state : desk.checkouts[i]? = some (target, .waiting) ∨
    desk.checkouts[i]? = some (target, .done (.ok connection))

theorem Served.connects_eq (h : desk.Served i target connection) : desk.connects i = false := by
  rcases h.state with hstate | hstate <;> rw [connects, hstate]

theorem Move.served (h : Move connect desk j after) (hserved : desk.Served i target connection) :
    after.Served i target connection := by
  refine ⟨h.find?_of_some hserved.find?_eq, ?_⟩
  by_cases hne : j = i
  · subst hne
    have hstate := hserved.state
    cases h with
    | absent | ended => exact hstate
    | found h hfind =>
      simp only [h, Option.some.injEq, Prod.mk.injEq, and_true, reduceCtorEq, and_false,
        or_false] at hstate
      subst hstate
      obtain rfl := Option.some.inj (hfind.symm.trans hserved.find?_eq)
      exact Or.inr (getElem?_set_of_some h _)
    | missed h hfind =>
      simp only [h, Option.some.injEq, Prod.mk.injEq, and_true, reduceCtorEq, and_false,
        or_false] at hstate
      subst hstate
      exact absurd (hfind.symm.trans hserved.find?_eq) nofun
    | connected h | refused h | offered h =>
      rw [h] at hstate
      rcases hstate with hstate | hstate <;> cases hstate
  · rw [h.getElem?_of_ne hne]
    exact hserved.state

/-! ### Any number of steps -/

theorem follow_append (connect : Target → ω → Except Causes ι × ω) (desk : Desk ω ι)
    (before after : List ℕ) :
    desk.follow connect (before ++ after) = (desk.follow connect before).follow connect after :=
  List.foldl_append

/-- A target keeps the connection that it has, and otherwise the one that is offered for it
first. -/
theorem find?_follow (connect : Target → ω → Except Causes ι × ω) (desk : Desk ω ι)
    (positions : List ℕ) (target : Target) :
    (desk.follow connect positions).cache.find? target =
      (desk.cache.find? target).or ((offers connect positions desk).lookup target) := by
  induction positions generalizing desk with
  | nil => rw [offers, List.lookup_nil, Option.or_none, follow, List.foldl_nil]
  | cons i positions ih =>
    have hstep := (move_advance connect desk i).find?_eq target
    rw [follow, List.foldl_cons, ← follow, ih, hstep, offers, List.lookup_append, Option.or_assoc]

theorem settled_follow (connect : Target → ω → Except Causes ι × ω) (positions : List ℕ)
    (h : desk.Settled) : (desk.follow connect positions).Settled := by
  induction positions generalizing desk with
  | nil => exact h
  | cons i positions ih => exact ih ((move_advance connect desk i).settled h)

theorem Served.not_mem_calls (h : desk.Served i target connection) (positions : List ℕ) :
    i ∉ calls connect positions desk := by
  induction positions generalizing desk with
  | nil => exact List.not_mem_nil
  | cons j positions ih =>
    have hrest := ih ((move_advance connect desk j).served h)
    rw [calls]
    split
    · rename_i hconnects
      have hne : i ≠ j := fun heq => by
        rw [← heq, h.connects_eq] at hconnects
        exact Bool.false_ne_true hconnects
      exact List.not_mem_cons_of_ne_of_not_mem hne hrest
    · exact hrest

/-- A checkout fails only if it is refused a connection itself. -/
theorem exists_refusal {world : ω} {targets : List Target} {causes : Causes}
    {positions : List ℕ}
    (h : ((opening world targets).follow connect positions).checkouts[i]? =
      some (target, .done (.error causes))) :
    ∃ earlier later, positions = earlier ++ i :: later ∧
      ((opening world targets).follow connect earlier).checkouts[i]? =
        some (target, .connecting) ∧
      (connect target ((opening world targets).follow connect earlier).world).1 =
        .error causes := by
  induction positions using List.reverseRecOn with
  | nil => simp [follow, opening] at h
  | append_singleton positions j ih =>
    rw [follow_append] at h
    rcases (move_advance connect _ j).refusal h with hbefore | ⟨rfl, hconnecting, hrefused⟩
    · obtain ⟨earlier, later, rfl, hrest⟩ := ih hbefore
      exact ⟨earlier, later ++ [j], by rw [List.append_assoc, List.cons_append], hrest⟩
    · exact ⟨positions, [], rfl, hconnecting, hrefused⟩

/-- The cache holds as many connections as there are targets for which one was offered. -/
theorem size_follow_opening (connect : Target → ω → Except Causes ι × ω) (world : ω)
    (targets : List Target) (positions : List ℕ) :
    ((opening world targets).follow connect positions).cache.size =
      ((offers connect positions (opening world targets)).map (·.1)).toFinset.card := by
  let last := (opening world targets : Desk ω ι).follow connect positions
  have htargets : (last.cache.entries.map (·.1)).toFinset =
      ((offers connect positions (opening world targets)).map (·.1)).toFinset := by
    ext target
    have hempty : (opening world targets : Desk ω ι).cache.find? target = none := rfl
    rw [List.mem_toFinset, List.mem_toFinset, Cache.mem_targets_iff, find?_follow, hempty,
      Option.none_or, List.lookup_isSome_iff, List.mem_map]
    simp only [beq_iff_eq, @eq_comm _ target]
  rw [← htargets, List.toFinset_card_of_nodup last.cache.nodup, List.length_map]
  rfl

/-- **The cache is sound under every order of steps.**  Checkouts of any targets take any number of
steps in any order, first those of `before` and then those of `after`.  What the cache keeps for a
target it keeps for good, and it is what was offered for the target first; every checkout that
succeeds returns it.  A checkout that is refused a connection leaves the cache and the other
checkouts as they are, and no other checkout fails.  There are as many connections as targets for
which one was offered, and a checkout that has not taken a step while its target has a connection
does not connect. -/
theorem follow_consistent (connect : Target → ω → Except Causes ι × ω) (world : ω)
    (targets : List Target) (before after : List ℕ) :
    let start : Desk ω ι := opening world targets
    let middle := start.follow connect before
    let last := middle.follow connect after
    let offered := offers connect (before ++ after) start
    (∀ target connection, middle.cache.find? target = some connection →
      last.cache.find? target = some connection) ∧
    (∀ target, last.cache.find? target = offered.lookup target) ∧
    (∀ (i : ℕ) (target : Target) (connection : ι),
      last.checkouts[i]? = some (target, .done (.ok connection)) →
        offered.lookup target = some connection) ∧
    (∀ (i : ℕ) (target : Target) (causes : Causes),
      middle.checkouts[i]? = some (target, .connecting) →
      (connect target middle.world).1 = .error causes →
        (middle.advance connect i).cache = middle.cache ∧
        (middle.advance connect i).checkouts =
          middle.checkouts.set i (target, .done (.error causes))) ∧
    (∀ (i : ℕ) (target : Target) (causes : Causes),
      last.checkouts[i]? = some (target, .done (.error causes)) →
        ∃ earlier later, before ++ after = earlier ++ i :: later ∧
          (start.follow connect earlier).checkouts[i]? = some (target, .connecting) ∧
          (connect target (start.follow connect earlier).world).1 = .error causes) ∧
    last.cache.size = (offered.map (·.1)).toFinset.card ∧
    (∀ (i : ℕ) (target : Target) (connection : ι),
      middle.checkouts[i]? = some (target, .waiting) →
      middle.cache.find? target = some connection → i ∉ calls connect after middle) := by
  intro start middle last offered
  have hlast : start.follow connect (before ++ after) = last := follow_append ..
  have hkept (target : Target) : last.cache.find? target = offered.lookup target := by
    rw [← hlast, find?_follow]
    rfl
  refine ⟨?_, hkept, ?_, ?_, ?_, ?_, ?_⟩
  · intro target connection hfind
    rw [find?_follow, hfind, Option.some_or]
  · intro i target connection hdone
    rw [← hkept]
    have hmiddle : middle.Settled := settled_follow connect before (settled_opening world targets)
    exact settled_follow connect after hmiddle i target connection hdone
  · intro i target causes hconnecting hrefused
    rcases hconnect : connect target middle.world with ⟨result, world'⟩
    rw [hconnect] at hrefused
    subst hrefused
    simp only [advance, hconnecting, Checkout.step, hconnect, and_self]
  · intro i target causes hdone
    rw [← hlast] at hdone
    exact exists_refusal hdone
  · rw [← hlast]
    exact size_follow_opening ..
  · intro i target connection hwaiting hfind
    exact Served.not_mem_calls ⟨hfind, Or.inl hwaiting⟩ after

/-- Two checkouts of one target race.  The second is the first to offer its connection, so the first
one returns it too. -/
theorem follow_consistent_race :
    let connect (_ : Target) (made : ℕ) : Except Causes ℕ × ℕ := (.ok made, made + 1)
    let target : Target := ⟨"a", "ks"⟩
    let middle := (opening 0 [target, target]).follow connect [0, 1, 0, 1, 1]
    let last := middle.follow connect [0]
    middle.checkouts[0]? = some (target, .holding 0) ∧
      last.checkouts[0]? = some (target, .done (.ok 1)) ∧ last.cache.find? target = some 1 := by
  intro connect target middle last
  have hmiddle : middle.cache.find? target = some 1 := by rfl
  obtain ⟨hkept, -⟩ := follow_consistent connect 0 [target, target] [0, 1, 0, 1, 1] [0]
  exact ⟨by rfl, by rfl, hkept target 1 hmiddle⟩

end Desk

end RingScan
