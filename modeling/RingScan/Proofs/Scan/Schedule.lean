import Mathlib.Data.Nat.Count
import Mathlib.Data.Stream.Init
import RingScan.Failure

/-!
# Schedules of faults

The executions of a scan may fail, each in its own way.  A schedule says for every execution that is
still to come what it fails with, or that it does not fail.  Whether a scan gets all of its pages is
decided by the schedule and by the number of attempts that a fetch has: a fetch gets its page when
fewer executions than that find no host before one succeeds, and it gives up when none is left or
when an execution fails in a way that no further attempt can mend.

## Main definitions

* `Schedule`: what the executions to come fail with.
* `Schedule.Recovers`, `Schedule.GivesUp`: the two ways in which a fetch ends.
* `Schedule.Course`: how the fetches of a scan go, one after the other.
* `Schedule.pagesBefore`, `Schedule.faultsBefore`: the executions before a given one, by their
  outcome.

## Main statements

* `Schedule.exists_course`: under every schedule the fetches go in some way.
* `Schedule.Course.pagesBefore_eq`: the pages of a course are the executions that succeed.
-/

namespace RingScan

/-- What the executions to come fail with, or that they do not fail. -/
abbrev Schedule := Stream' (Option ExecutionFault)

namespace Schedule

theorem get_drop_zero (faults : Schedule) (m : ℕ) : (faults.drop m).get 0 = faults.get m := by
  rw [Stream'.get_drop, Nat.add_zero]

/-! ### One fetch -/

/-- The first `k` executions find no host. -/
def Waits (faults : Schedule) (k : ℕ) : Prop :=
  ∀ j < k, ∃ fault, faults.get j = some fault ∧ fault.isTransient = true

/-- A fetch of `attempts` attempts gets its page after `k` executions that find no host. -/
structure Recovers (attempts : ℕ) (faults : Schedule) (k : ℕ) : Prop where
  lt : k < attempts
  waits : faults.Waits k
  get_eq : faults.get k = none

/-- A fetch of `attempts` attempts gives up with `fault`: after `k` executions that find no host,
the next one fails for another reason, or finds no host either and was the last attempt. -/
structure GivesUp (attempts : ℕ) (faults : Schedule) (k : ℕ) (fault : ExecutionFault) : Prop where
  lt : k < attempts
  waits : faults.Waits k
  get_eq : faults.get k = some fault
  last : fault.isTransient = true → k + 1 = attempts

theorem waits_zero (faults : Schedule) : faults.Waits 0 := fun _ hj => absurd hj (Nat.not_lt_zero _)

theorem Waits.succ {faults : Schedule} {k : ℕ} {fault : ExecutionFault}
    (hhead : faults.get 0 = some fault) (ht : fault.isTransient = true)
    (htail : Waits (faults.drop 1) k) : faults.Waits (k + 1) := by
  intro j hj
  cases j with
  | zero => exact ⟨fault, hhead, ht⟩
  | succ j =>
    obtain ⟨later, hget, hlater⟩ := htail j (by omega)
    exact ⟨later, by rwa [Stream'.get_drop, Nat.add_comm] at hget, hlater⟩

theorem Waits.head {faults : Schedule} {k : ℕ} (h : faults.Waits (k + 1)) :
    ∃ fault, faults.get 0 = some fault ∧ fault.isTransient = true :=
  h 0 (Nat.succ_pos k)

theorem Waits.tail {faults : Schedule} {k : ℕ} (h : faults.Waits (k + 1)) :
    Waits (faults.drop 1) k := by
  intro j hj
  obtain ⟨fault, hget, ht⟩ := h (j + 1) (by omega)
  exact ⟨fault, by rwa [Stream'.get_drop, Nat.add_comm], ht⟩

theorem Recovers.tail {attempts k : ℕ} {faults : Schedule}
    (h : Recovers (attempts + 1) faults (k + 1)) : Recovers attempts (faults.drop 1) k where
  lt := Nat.lt_of_succ_lt_succ h.lt
  waits := h.waits.tail
  get_eq := by rw [Stream'.get_drop, Nat.add_comm, h.get_eq]

theorem GivesUp.tail {attempts k : ℕ} {faults : Schedule} {fault : ExecutionFault}
    (h : GivesUp (attempts + 1) faults (k + 1) fault) :
    GivesUp attempts (faults.drop 1) k fault where
  lt := Nat.lt_of_succ_lt_succ h.lt
  waits := h.waits.tail
  get_eq := by rw [Stream'.get_drop, Nat.add_comm, h.get_eq]
  last ht := Nat.succ.inj (h.last ht)

/-- A fetch gets its page or gives up, and there is no third way. -/
theorem recovers_or_givesUp (attempts : ℕ) (h : 0 < attempts) (faults : Schedule) :
    (∃ k, Recovers attempts faults k) ∨ ∃ k fault, GivesUp attempts faults k fault := by
  obtain ⟨left, rfl⟩ : ∃ left, attempts = left + 1 := ⟨attempts - 1, by omega⟩
  clear h
  induction left generalizing faults with
  | zero =>
    cases hget : faults.get 0 with
    | none => exact Or.inl ⟨0, Nat.one_pos, waits_zero faults, hget⟩
    | some fault => exact Or.inr ⟨0, fault, Nat.one_pos, waits_zero faults, hget, fun _ => rfl⟩
  | succ left ih =>
    cases hget : faults.get 0 with
    | none => exact Or.inl ⟨0, by omega, waits_zero faults, hget⟩
    | some fault =>
      by_cases ht : fault.isTransient = true
      · rcases ih (faults.drop 1) with ⟨k, hk⟩ | ⟨k, later, hk⟩
        · refine Or.inl ⟨k + 1, Nat.succ_lt_succ hk.lt, Waits.succ hget ht hk.waits, ?_⟩
          simpa only [Stream'.get_drop, Nat.add_comm] using hk.get_eq
        · refine Or.inr ⟨k + 1, later, Nat.succ_lt_succ hk.lt, Waits.succ hget ht hk.waits, ?_, ?_⟩
          · simpa only [Stream'.get_drop, Nat.add_comm] using hk.get_eq
          · intro hlater
            exact congrArg (· + 1) (hk.last hlater)
      · exact Or.inr ⟨0, fault, by omega, waits_zero faults, hget, fun ht' => absurd ht' ht⟩

/-! ### One fetch after the other -/

/-- How `count` fetches of `attempts` attempts each go: the number of pages they get, the number of
executions they take, and the failure of the first fetch that gives up, after which there are no
others. -/
inductive Course (attempts : ℕ) : Schedule → ℕ → ℕ → ℕ → Option Failure → Prop
  | done (faults : Schedule) : Course attempts faults 0 0 0 none
  | page {faults : Schedule} {count got made k : ℕ} {failure? : Option Failure}
      (hpage : Recovers attempts faults k)
      (hrest : Course attempts (faults.drop (k + 1)) count got made failure?) :
      Course attempts faults (count + 1) (got + 1) (k + 1 + made) failure?
  | broken {faults : Schedule} {k : ℕ} {fault : ExecutionFault} (count : ℕ)
      (h : GivesUp attempts faults k fault) :
      Course attempts faults (count + 1) 0 (k + 1) (some (.io (k + 1) fault))

/-- Under every schedule the fetches go in some way. -/
theorem exists_course {attempts : ℕ} (h : 0 < attempts) (faults : Schedule) (count : ℕ) :
    ∃ got made failure?, Course attempts faults count got made failure? := by
  induction count generalizing faults with
  | zero => exact ⟨0, 0, none, .done faults⟩
  | succ count ih =>
    rcases recovers_or_givesUp attempts h faults with ⟨k, hk⟩ | ⟨k, fault, hk⟩
    · obtain ⟨got, made, failure?, hrest⟩ := ih (faults.drop (k + 1))
      exact ⟨got + 1, k + 1 + made, failure?, .page hk hrest⟩
    · exact ⟨0, k + 1, some (.io (k + 1) fault), .broken count hk⟩

theorem Recovers.eq {attempts k l : ℕ} {faults : Schedule} (hk : Recovers attempts faults k)
    (hl : Recovers attempts faults l) : k = l := by
  rcases Nat.lt_trichotomy k l with h | h | h
  · obtain ⟨fault, hget, -⟩ := hl.waits k h
    exact absurd (hk.get_eq.symm.trans hget) nofun
  · exact h
  · obtain ⟨fault, hget, -⟩ := hk.waits l h
    exact absurd (hl.get_eq.symm.trans hget) nofun

/-- A fetch that gets its page does not give up. -/
theorem Recovers.not_givesUp {attempts k l : ℕ} {faults : Schedule} {fault : ExecutionFault}
    (hk : Recovers attempts faults k) : ¬ GivesUp attempts faults l fault := by
  intro hl
  rcases Nat.lt_trichotomy k l with h | h | h
  · obtain ⟨other, hget, -⟩ := hl.waits k h
    exact absurd (hk.get_eq.symm.trans hget) nofun
  · subst h
    exact absurd (hk.get_eq.symm.trans hl.get_eq) nofun
  · obtain ⟨other, hget, ht⟩ := hk.waits l h
    obtain rfl := Option.some.inj (hget.symm.trans hl.get_eq)
    have := hl.last ht
    have := hk.lt
    omega

/-- A course on which all fetches get their pages is the only one. -/
theorem Course.not_broken {attempts count got made got' made' : ℕ} {faults : Schedule}
    {failure? : Option Failure} (h : Course attempts faults count got made failure?)
    (hnone : failure? = none) (failure : Failure) :
    ¬ Course attempts faults count got' made' (some failure) := by
  intro h'
  induction h generalizing got' made' with
  | done => cases h'
  | page hpage _ ih =>
    cases h' with
    | page hpage' hrest' =>
      obtain rfl := hpage.eq hpage'
      exact ih hnone hrest'
    | broken _ hbroken => exact hpage.not_givesUp hbroken
  | broken => exact absurd hnone (Option.some_ne_none _)

theorem recovers_zero {attempts : ℕ} {faults : Schedule} (h : 0 < attempts)
    (hget : faults.get 0 = none) : Recovers attempts faults 0 :=
  ⟨h, waits_zero faults, hget⟩

/-- Without faults every fetch takes one execution and gets its page. -/
theorem course_const {attempts : ℕ} (h : 0 < attempts) (count : ℕ) :
    Course attempts (Stream'.const none) count count count none := by
  induction count with
  | zero => exact .done _
  | succ count ih =>
    have hpage : Recovers attempts (Stream'.const none) 0 := recovers_zero h rfl
    have hcourse := Course.page hpage (by simpa only [Stream'.drop_const] using ih)
    simpa only [Nat.zero_add, Nat.add_comm 1 count] using hcourse

/-- A course on which no fetch gives up gets all pages. -/
theorem Course.got_eq {attempts count got made : ℕ} {faults : Schedule} {failure? : Option Failure}
    (h : Course attempts faults count got made failure?) (hnone : failure? = none) :
    got = count := by
  induction h with
  | done => rfl
  | page _ _ ih => rw [ih hnone]
  | broken => exact absurd hnone (Option.some_ne_none _)

/-- If no fetch can give up, the fetches get all pages. -/
theorem exists_course_none {attempts : ℕ} (h : 0 < attempts) {faults : Schedule} {count : ℕ}
    (hmend : ∀ got made failure, ¬ Course attempts faults count got made (some failure)) :
    ∃ made, Course attempts faults count count made none := by
  obtain ⟨got, made, failure?, hcourse⟩ := exists_course h faults count
  cases failure? with
  | none => exact ⟨made, hcourse.got_eq rfl ▸ hcourse⟩
  | some failure => exact absurd hcourse (hmend got made failure)

/-! ### Executions by their outcome -/

/-- The number of executions before the `j`-th that succeed; this is the index of the page that the
`j`-th execution asks for. -/
def pagesBefore (faults : Schedule) (j : ℕ) : ℕ :=
  Nat.count (fun i => (faults.get i).isNone) j

/-- The number of executions before the `j`-th that fail. -/
def faultsBefore (faults : Schedule) (j : ℕ) : ℕ :=
  Nat.count (fun i => (faults.get i).isSome) j

@[simp] theorem pagesBefore_zero (faults : Schedule) : faults.pagesBefore 0 = 0 :=
  Nat.count_zero _

@[simp] theorem faultsBefore_zero (faults : Schedule) : faults.faultsBefore 0 = 0 :=
  Nat.count_zero _

theorem pagesBefore_succ_of_none {faults : Schedule} {j : ℕ} (h : faults.get j = none) :
    faults.pagesBefore (j + 1) = faults.pagesBefore j + 1 := by
  simp only [pagesBefore, Nat.count_succ, h, Option.isNone_none, if_true]

theorem pagesBefore_succ_of_some {faults : Schedule} {j : ℕ} {fault : ExecutionFault}
    (h : faults.get j = some fault) : faults.pagesBefore (j + 1) = faults.pagesBefore j := by
  simp [pagesBefore, Nat.count_succ, h]

theorem faultsBefore_succ_of_none {faults : Schedule} {j : ℕ} (h : faults.get j = none) :
    faults.faultsBefore (j + 1) = faults.faultsBefore j := by
  simp [faultsBefore, Nat.count_succ, h]

theorem faultsBefore_succ_of_some {faults : Schedule} {j : ℕ} {fault : ExecutionFault}
    (h : faults.get j = some fault) : faults.faultsBefore (j + 1) = faults.faultsBefore j + 1 := by
  simp only [faultsBefore, Nat.count_succ, h, Option.isSome_some, if_true]

/-- Every execution succeeds or fails. -/
theorem pagesBefore_add_faultsBefore (faults : Schedule) (j : ℕ) :
    faults.pagesBefore j + faults.faultsBefore j = j := by
  induction j with
  | zero => rfl
  | succ j ih =>
    cases h : faults.get j with
    | none => rw [pagesBefore_succ_of_none h, faultsBefore_succ_of_none h]; omega
    | some fault => rw [pagesBefore_succ_of_some h, faultsBefore_succ_of_some h]; omega

theorem pagesBefore_add (faults : Schedule) (m j : ℕ) :
    faults.pagesBefore (m + j) = faults.pagesBefore m + pagesBefore (faults.drop m) j := by
  simp only [pagesBefore, Nat.count_add, Stream'.get_drop]

theorem Waits.pagesBefore_eq {faults : Schedule} {k j : ℕ} (h : faults.Waits k) (hj : j ≤ k) :
    faults.pagesBefore j = 0 := by
  induction j with
  | zero => exact pagesBefore_zero faults
  | succ j ih =>
    obtain ⟨fault, hget, -⟩ := h j hj
    rw [pagesBefore_succ_of_some hget, ih (Nat.le_of_succ_le hj)]

theorem Recovers.pagesBefore_eq {attempts k : ℕ} {faults : Schedule}
    (h : Recovers attempts faults k) : faults.pagesBefore (k + 1) = 1 := by
  rw [pagesBefore_succ_of_none h.get_eq, h.waits.pagesBefore_eq (Nat.le_refl k)]

theorem GivesUp.pagesBefore_eq {attempts k : ℕ} {faults : Schedule} {fault : ExecutionFault}
    (h : GivesUp attempts faults k fault) : faults.pagesBefore (k + 1) = 0 := by
  rw [pagesBefore_succ_of_some h.get_eq, h.waits.pagesBefore_eq (Nat.le_refl k)]

/-- The pages of a course are its executions that succeed. -/
theorem Course.pagesBefore_eq {attempts count got made : ℕ} {faults : Schedule}
    {failure? : Option Failure} (h : Course attempts faults count got made failure?) :
    faults.pagesBefore made = got := by
  induction h with
  | done => exact pagesBefore_zero _
  | page hpage _ ih => rw [pagesBefore_add, hpage.pagesBefore_eq, ih, Nat.add_comm]
  | broken _ hbroken => exact hbroken.pagesBefore_eq

/-- The failure that ends a course is that of an execution, and it tells the number of executions
that ask for the page that is not received. -/
theorem Course.exists_io {attempts count got made : ℕ} {faults : Schedule} {failure : Failure}
    (h : Course attempts faults count got made (some failure)) :
    ∃ k fault, failure = .io k fault ∧ k ≤ attempts ∧
      Nat.count (fun j => faults.pagesBefore j = got) made = k := by
  generalize hfailure : some failure = failure? at h
  induction h with
  | done => exact absurd hfailure (Option.some_ne_none _)
  | @page faults count got made k failure? hpage hrest ih =>
    obtain ⟨n, fault, hio, hle, hcount⟩ := ih hfailure
    refine ⟨n, fault, hio, hle, ?_⟩
    have hbefore : Nat.count (fun j => faults.pagesBefore j = got + 1) (k + 1) = 0 := by
      rw [Nat.count_iff_forall_not]
      intro j hj
      rw [hpage.waits.pagesBefore_eq (Nat.le_of_lt_succ hj)]
      omega
    have hafter (j : ℕ) : faults.pagesBefore (k + 1 + j) = got + 1 ↔
        pagesBefore (faults.drop (k + 1)) j = got := by
      rw [pagesBefore_add, hpage.pagesBefore_eq]
      omega
    simp only [Nat.count_add, hbefore, hafter, hcount, Nat.zero_add]
  | @broken faults k fault count hbroken =>
    refine ⟨k + 1, fault, Option.some.inj hfailure, hbroken.lt, ?_⟩
    rw [Nat.count_iff_forall]
    intro j hj
    exact hbroken.waits.pagesBefore_eq (Nat.le_of_lt_succ hj)

end Schedule

end RingScan
