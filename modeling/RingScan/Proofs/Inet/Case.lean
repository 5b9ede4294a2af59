import Mathlib.Data.List.TakeWhile
import RingScan.Inet.Text
import RingScan.Proofs.Text.Case

/-!
# Addresses in capital and small letters

The only letters in the text of an address are hexadecimal digits, and these have one value in both
cases.  So each part of an address is read in the same way from a text and from its small letters,
and leaves the same rest.

## Main definitions

* `Inet.IgnoresCase`: a reader that makes no difference between capital and small letters.

## Main statements

* `Inet.Address.read?_map_toLower`: an address is read in the same way from a text in small letters.
-/

namespace RingScan.Inet

open Text

/-- What is read from the front of a text, with the rest of the text in small letters. -/
def lowerRest {α : Type} (p : α × List Char) : α × List Char :=
  (p.1, p.2.map Char.toLower)

/-- A reader makes no difference between a text and its small letters, but for the rest that it
leaves. -/
def IgnoresCase {α : Type} (reader : List Char → Option (α × List Char)) : Prop :=
  ∀ s, reader (s.map Char.toLower) = (reader s).map lowerRest

namespace IgnoresCase

variable {α β : Type} {reader : List Char → Option (α × List Char)}

/-- Readers one after the other. -/
theorem bind (h : IgnoresCase reader) {next : α → List Char → Option (β × List Char)}
    (hnext : ∀ a, IgnoresCase (next a)) :
    IgnoresCase fun s => (reader s).bind fun p => next p.1 p.2 := by
  intro s
  simp only [h s]
  cases reader s with
  | none => rfl
  | some p => exact hnext p.1 p.2

/-- Nothing is read. -/
theorem pure (a : α) : IgnoresCase fun s => some (a, s) := fun _ => rfl

end IgnoresCase

/-! ### Four bytes -/

theorem ignoresCase_readOctet : IgnoresCase readOctet := by
  intro s
  have hdigits : ∀ c ∈ s.takeWhile Char.isDigit, c.isDigit = true := fun _ =>
    List.mem_takeWhile_imp
  rw [readOctet, readOctet, takeWhile_map_toLower isDigit_toLower,
    dropWhile_map_toLower isDigit_toLower, map_toLower_of_isDigit hdigits]
  split <;> rfl

/-- A decimal number after a point. -/
def readPointed : List Char → Option (UInt8 × List Char)
  | '.' :: s => readOctet s
  | _ => none

theorem readPointed_cons_of_ne {c : Char} (h : c ≠ '.') (s : List Char) :
    readPointed (c :: s) = none := by
  unfold readPointed
  split
  · rename_i heq
    exact absurd (List.cons.inj heq).1 h
  · rfl

theorem ignoresCase_readPointed : IgnoresCase readPointed := by
  intro s
  cases s with
  | nil => rfl
  | cons c s =>
    by_cases hc : c = '.'
    · subst hc
      exact ignoresCase_readOctet s
    · have hlower : c.toLower ≠ '.' := mt (toLower_eq_iff (by decide)).1 hc
      rw [List.map_cons, readPointed_cons_of_ne hc, readPointed_cons_of_ne hlower]
      rfl

theorem readShort_eq (s : List Char) :
    readShort s = (readOctet s).bind fun p => (readPointed p.2).bind fun q =>
      (readPointed q.2).bind fun r => (readPointed r.2).bind fun t =>
        some ([p.1, q.1, r.1, t.1], t.2) := by
  have hpoint (s : List Char) : readPointed s =
      (match s with
        | '.' :: s => some s
        | _ => none).bind readOctet := by
    unfold readPointed
    split <;> rfl
  simp only [readShort, hpoint, Option.bind_assoc]
  rfl

theorem ignoresCase_readShort : IgnoresCase readShort := by
  have hall := ignoresCase_readOctet.bind fun a => ignoresCase_readPointed.bind fun b =>
    ignoresCase_readPointed.bind fun c => ignoresCase_readPointed.bind fun d =>
      IgnoresCase.pure [a, b, c, d]
  intro s
  rw [readShort_eq, readShort_eq]
  exact hall s

/-! ### Groups -/

theorem ignoresCase_readGroup : IgnoresCase readGroup := by
  intro s
  have hvalues : Hex.value? ∘ Char.toLower = Hex.value? := funext Hex.value?_toLower
  have hdigits : ∀ c : Char, (Hex.value? c.toLower).isSome = (Hex.value? c).isSome := fun c => by
    rw [Hex.value?_toLower]
  rw [readGroup, readGroup, takeWhile_map_toLower hdigits, List.filterMap_map, hvalues,
    ← List.map_drop]
  split <;> rfl

/-- A colon at the front of a text is there in small letters too. -/
theorem afterColon_map_toLower (first : Bool) (s : List Char) :
    afterColon first (s.map Char.toLower) = (afterColon first s).map (List.map Char.toLower) := by
  cases first with
  | true => rfl
  | false =>
    cases s with
    | nil => rfl
    | cons c s =>
      by_cases hc : c = ':'
      · subst hc
        rfl
      · have hlower : c.toLower ≠ ':' := mt (toLower_eq_iff (by decide)).1 hc
        simp [afterColon, hc, hlower]

theorem bind_afterColon {α : Type} {reader : List Char → Option (α × List Char)}
    (h : IgnoresCase reader) (first : Bool) (s : List Char) :
    (afterColon first (s.map Char.toLower)).bind reader =
      ((afterColon first s).bind reader).map lowerRest := by
  rw [afterColon_map_toLower]
  cases afterColon first s with
  | none => rfl
  | some t => exact h t

theorem readGroups_map_toLower (limit : ℕ) (first : Bool) (s : List Char) :
    readGroups limit first (s.map Char.toLower) =
      ((readGroups limit first s).1, lowerRest (readGroups limit first s).2) := by
  induction limit generalizing first s with
  | zero => rfl
  | succ limit ih =>
    have hshort : (if limit = 0 then none else
        (afterColon first (s.map Char.toLower)).bind readShort) =
          (if limit = 0 then none else (afterColon first s).bind readShort).map lowerRest := by
      split
      · rfl
      · exact bind_afterColon ignoresCase_readShort first s
    have hgroup := bind_afterColon ignoresCase_readGroup first s
    rw [readGroups, readGroups, hshort, hgroup]
    cases (if limit = 0 then none else (afterColon first s).bind readShort) with
    | some p => rfl
    | none =>
      cases (afterColon first s).bind readGroup with
      | none => rfl
      | some p =>
        simp only [Option.map_some, Option.map_none, lowerRest, ih]

theorem ignoresCase_readLong : IgnoresCase readLong := by
  intro s
  rw [readLong, readLong, readGroups_map_toLower]
  obtain ⟨front, endsShort, t⟩ := readGroups 8 true s
  simp only [lowerRest]
  by_cases hfull : front.length = 8
  · simp only [if_pos hfull, Option.map_some, lowerRest]
  · simp only [if_neg hfull]
    cases endsShort with
    | true => rfl
    | false =>
      simp only [Bool.false_eq_true, if_false]
      -- A double colon is one in small letters and nothing else is.
      split
      · rename_i u hlower
        obtain ⟨c, t, rfl, hc, hlower⟩ := List.map_eq_cons_iff.1 hlower
        obtain ⟨d, t, rfl, hd, rfl⟩ := List.map_eq_cons_iff.1 hlower
        obtain rfl := (toLower_eq_iff (by decide)).1 hc
        obtain rfl := (toLower_eq_iff (by decide)).1 hd
        simp only [readGroups_map_toLower, lowerRest, Option.map_some]
      · rename_i hnone
        split
        · rename_i t
          exact absurd rfl (hnone (t.map Char.toLower))
        · rfl

/-- An address is read in the same way from a text in small letters. -/
theorem Address.read?_map_toLower (s : List Char) :
    Address.read? (s.map Char.toLower) = Address.read? s := by
  rw [read?, read?, ignoresCase_readShort s, ignoresCase_readLong s]
  have hempty (rest : List Char) : (rest.map Char.toLower).isEmpty = rest.isEmpty := by
    cases rest <;> rfl
  cases readShort s with
  | some p => simp only [Option.map_some, lowerRest, hempty]
  | none =>
    cases readLong s with
    | some p => simp only [Option.map_none, Option.map_some, lowerRest, hempty]
    | none => rfl

end RingScan.Inet
