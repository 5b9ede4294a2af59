import RingScan.Failure

/-!
# Cached connections

One connection is kept for each endpoint and keyspace, and it is never replaced.

## Main definitions

* `Target`: what a connection is made to.
* `Cache`: the connections that are kept.
* `Cache.find?`, `Cache.keep`: the connection to a target, and the one that is kept for it from now
  on.

## Main statements

* `Cache.find?_keep`: what is found after a connection has been offered.
-/

namespace RingScan

/-- What a connection is made to. -/
structure Target where
  /-- The endpoint. -/
  endpoint : String
  /-- The keyspace. -/
  keyspace : String
  deriving DecidableEq, Repr

/-- The connections that are kept. -/
structure Cache (ι : Type) where
  /-- The targets and their connections. -/
  entries : List (Target × ι) := []
  /-- No target occurs twice. -/
  nodup : (entries.map (·.1)).Nodup := by simp

namespace Cache

variable {ι : Type}

instance : EmptyCollection (Cache ι) := ⟨{}⟩

/-- The connection to a target. -/
def find? (cache : Cache ι) (target : Target) : Option ι :=
  (cache.entries.find? (·.1 = target)).map (·.2)

/-- A target without a connection is none of the targets that have one. -/
theorem not_mem_of_find?_eq_none {cache : Cache ι} {target : Target}
    (h : cache.find? target = none) : target ∉ cache.entries.map (·.1) := by
  simp only [find?, Option.map_eq_none_iff, List.find?_eq_none, decide_eq_true_eq] at h
  intro hmem
  obtain ⟨entry, hentry, rfl⟩ := List.mem_map.1 hmem
  exact h entry hentry rfl

/-- Offers a connection to a target.  The one that is kept is the one that was kept before, if
there was one. -/
def keep (cache : Cache ι) (target : Target) (connection : ι) : ι × Cache ι :=
  match h : cache.find? target with
  | some kept => (kept, cache)
  | none =>
    (connection, ⟨(target, connection) :: cache.entries,
      List.nodup_cons.2 ⟨not_mem_of_find?_eq_none h, cache.nodup⟩⟩)

theorem keep_of_some {cache : Cache ι} {target : Target} {kept : ι}
    (h : cache.find? target = some kept) (connection : ι) :
    cache.keep target connection = (kept, cache) := by
  rw [keep]
  split
  · rename_i found hfound
    rw [Option.some.inj (hfound.symm.trans h)]
  · rename_i hnone
    exact absurd (hnone.symm.trans h) nofun

theorem keep_of_none {cache : Cache ι} {target : Target} (h : cache.find? target = none)
    (connection : ι) :
    (cache.keep target connection).1 = connection ∧
      (cache.keep target connection).2.entries = (target, connection) :: cache.entries := by
  rw [keep]
  split
  · rename_i kept hsome
    exact absurd (hsome.symm.trans h) nofun
  · exact ⟨rfl, rfl⟩

/-- A connection that is offered becomes the one of its target, unless there is one; no other target
is concerned. -/
theorem find?_keep (cache : Cache ι) (target other : Target) (connection : ι) :
    (cache.keep target connection).2.find? other =
      (cache.find? other).or (if target = other then some connection else none) := by
  cases h : cache.find? target with
  | some kept =>
    rw [keep_of_some h]
    by_cases heq : target = other
    · rw [if_pos heq, ← heq, h, Option.some_or]
    · rw [if_neg heq, Option.or_none]
  | none =>
    rw [find?, (keep_of_none h connection).2]
    by_cases heq : target = other
    · subst heq
      simp only [List.find?_cons, decide_true, Option.map_some, if_true, h, Option.none_or]
    · simp only [List.find?_cons, heq, decide_false, if_false, Option.or_none]
      rfl

/-- What is kept for a target is found there afterwards. -/
theorem find?_keep_self (cache : Cache ι) (target : Target) (connection : ι) :
    (cache.keep target connection).2.find? target = some (cache.keep target connection).1 := by
  cases h : cache.find? target with
  | some kept => rw [keep_of_some h, h]
  | none => rw [find?_keep, h, if_pos rfl, Option.none_or, (keep_of_none h connection).1]

/-- The number of connections. -/
def size (cache : Cache ι) : Nat :=
  cache.entries.length

/-- There is no connection. -/
def isEmpty (cache : Cache ι) : Bool :=
  cache.entries.isEmpty

end Cache

end RingScan
