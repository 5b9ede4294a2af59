import RingScan.Proofs.Document.Records
import RingScan.Proofs.Inet.Text
import RingScan.Value.Document

/-!
# Values read back

A value that holds no real reads back from its document, as long as no more collections have to be
opened for it than may be open.  A value of any kind opens an object; raw bytes open one list inside
it, and each list of values opens one more before its values open theirs, so a value whose lists are
nested `n` deep opens at most `2 * n + 2`.

## Main definitions

* `Value.isExact`: a value that holds no real.
* `Value.nesting`: how deeply lists are nested in a value.

## Main statements

* `Value.reads_write`: a value reads back.
-/

namespace RingScan

namespace Document

/-! ### Integers, bytes and addresses -/

theorem reads_int64 (n : Int64) : Reads int64 (writeInteger n.toInt) n := by
  have hlow := n.le_toInt
  have hhigh := n.toInt_lt
  have h := (reads_signed 8 (by decide) hlow hhigh).map Int64.ofInt
  rwa [Int64.ofInt_toInt] at h

theorem reads_bytes (b : Bytes) : Reads bytes (writeBytes b) b := by
  have hitems : List.Forall₂ (Reads (natural 255)) (b.map fun b => writeInteger b.toNat)
      (b.map UInt8.toNat) := by
    rw [List.forall₂_map_left_iff, List.forall₂_map_right_iff, List.forall₂_same]
    exact fun byte _ => reads_natural (by decide) (Nat.le_of_lt_succ byte.toNat_lt)
  have h := (reads_sequence hitems).map (List.map UInt8.ofNat)
  have hback : (b.map UInt8.toNat).map UInt8.ofNat = b := by
    rw [List.map_map]
    exact (List.map_congr_left fun byte _ => UInt8.ofNat_toNat).trans (List.map_id b)
  rwa [hback] at h

theorem reads_address (a : Inet.Address) :
    Reads address (writeText (String.ofList a.write)) a where
  opens := (reads_text _).opens
  reads rest _ := by
    rw [address, text_writeText]
    simp only [bind, Except.bind, String.toList_ofList, Inet.Address.read?_write]

end Document

namespace Value

open Document

/-! ### Reals and nesting -/

mutual

/-- The value holds no real. -/
def isExact : Value → Bool
  | double _ => false
  | float _ => false
  | list items => allExact items
  | _ => true

/-- No value of a list holds a real. -/
def allExact : List Value → Bool
  | [] => true
  | item :: rest => isExact item && allExact rest

end

mutual

/-- How deeply lists are nested in a value. -/
def nesting : Value → ℕ
  | list items => nestingOfAll items + 1
  | _ => 0

/-- How deeply lists are nested in the values of a list. -/
def nestingOfAll : List Value → ℕ
  | [] => 0
  | item :: rest => max (nesting item) (nestingOfAll rest)

end

/-! ### Values -/

@[simp] theorem Kind.ofTag?_tag (kind : Kind) : Kind.ofTag? kind.tag = some kind := by
  cases kind <;> decide

/-- A value reads back when what it holds does. -/
theorem reads_writeTagged {items : Option (Reader Value)} (kind : Kind) {written : List Char}
    {value : Value} (h : Reads (held items kind) written value) :
    Reads (tagged items) (writeTagged kind written) value :=
  reads_tagged kind.tag (by rw [Kind.ofTag?_tag, Option.map_some]) h

theorem reads_held {α : Type} (make : α → Value) {reader : Reader α} {written : List Char} {x : α}
    {value : Value} (h : Reads reader written x) (hmake : make x = value) :
    Reads (holding make reader) written value :=
  hmake ▸ h.map make

mutual

/-- A value that holds no real reads back where enough collections may be opened. -/
theorem reads_write : (value : Value) → (levels : ℕ) → value.isExact = true →
    2 * value.nesting ≤ levels → Reads (reader (levels + 2)) value.write value
  | text s, _, _, _ => reads_writeTagged .text (reads_held text (reads_text s) rfl)
  | bigInt n, _, _, _ => reads_writeTagged .bigInt (reads_held bigInt (reads_int64 n) rfl)
  | int n, _, _, _ =>
    reads_writeTagged .int (reads_held (fun n => int (Int32.ofInt n))
      (reads_signed 4 (by decide) n.le_toInt n.toInt_lt) (congrArg int (Int32.ofInt_toInt n)))
  | smallInt n, _, _, _ =>
    reads_writeTagged .smallInt (reads_held (fun n => smallInt (Int16.ofInt n))
      (reads_signed 2 (by decide) n.le_toInt n.toInt_lt) (congrArg smallInt (Int16.ofInt_toInt n)))
  | tinyInt n, _, _, _ =>
    reads_writeTagged .tinyInt (reads_held (fun n => tinyInt (Int8.ofInt n))
      (reads_signed 1 (by decide) n.le_toInt n.toInt_lt) (congrArg tinyInt (Int8.ofInt_toInt n)))
  | boolean b, _, _, _ => reads_writeTagged .boolean (reads_held boolean (reads_boolean b) rfl)
  | double _, _, hexact, _ => absurd hexact Bool.false_ne_true
  | float _, _, hexact, _ => absurd hexact Bool.false_ne_true
  | blob b, _, _, _ => reads_writeTagged .blob (reads_held blob (reads_bytes b) rfl)
  | uuid s, _, _, _ => reads_writeTagged .uuid (reads_held uuid (reads_text s) rfl)
  | timestamp n, _, _, _ => reads_writeTagged .timestamp (reads_held timestamp (reads_int64 n) rfl)
  | inet a, _, _, _ => reads_writeTagged .inet (reads_held inet (reads_address a) rfl)
  | list items, levels, hexact, hlevels => by
    rw [nesting] at hlevels
    obtain ⟨levels, rfl⟩ : ∃ inner, levels = inner + 2 := ⟨levels - 2, by omega⟩
    have hitems := reads_writeAll items levels hexact (by omega)
    exact reads_writeTagged .list (reads_held list (reads_sequence hitems) rfl)

/-- The values of a list read back, each where the same number of collections may be opened. -/
theorem reads_writeAll : (items : List Value) → (levels : ℕ) → allExact items = true →
    2 * nestingOfAll items ≤ levels →
    List.Forall₂ (Reads (reader (levels + 2))) (writeAll items) items
  | [], _, _, _ => .nil
  | item :: rest, levels, hexact, hlevels => by
    rw [allExact, Bool.and_eq_true] at hexact
    rw [nestingOfAll] at hlevels
    exact .cons (reads_write item levels hexact.1 (by omega))
      (reads_writeAll rest levels hexact.2 (by omega))

end

end Value

end RingScan
