import RingScan.Decimal.Real
import RingScan.Inet.Address

/-!
# Values

What a column may hold and a statement may bind.

## Main definitions

* `Value`: a value.
* `Value.Kind`, `Value.kind`: the kinds of values.
* `Value.integer?`: the integer that a value of an integer kind is.
-/

namespace RingScan

/-- A value that a column may hold or a statement may bind. -/
inductive Value where
  /-- A text. -/
  | text (s : String)
  /-- A 64-bit integer. -/
  | bigInt (n : Int64)
  /-- A 32-bit integer. -/
  | int (n : Int32)
  /-- A 16-bit integer. -/
  | smallInt (n : Int16)
  /-- An 8-bit integer. -/
  | tinyInt (n : Int8)
  /-- A truth value. -/
  | boolean (b : Bool)
  /-- A 64-bit real. -/
  | double (x : Double)
  /-- A 32-bit real. -/
  | float (x : Single)
  /-- Raw bytes. -/
  | blob (bytes : Bytes)
  /-- A unique identifier, as a text that may be malformed. -/
  | uuid (s : String)
  /-- A moment, in milliseconds. -/
  | timestamp (n : Int64)
  /-- A network address. -/
  | inet (a : Inet.Address)
  /-- Several values bound as one. -/
  | list (items : List Value)
  deriving Repr

namespace Value

/-- The kinds of values. -/
inductive Kind where
  | text
  | bigInt
  | int
  | smallInt
  | tinyInt
  | boolean
  | double
  | float
  | blob
  | uuid
  | timestamp
  | inet
  | list
  deriving DecidableEq, Repr

namespace Kind

/-- The name of a kind in a message. -/
def name : Kind → String
  | text => "text"
  | bigInt => "bigint"
  | int => "int"
  | smallInt => "smallint"
  | tinyInt => "tinyint"
  | boolean => "boolean"
  | double => "double"
  | float => "float"
  | blob => "blob"
  | uuid => "uuid"
  | timestamp => "timestamp"
  | inet => "inet"
  | list => "list"

/-- The name of a kind in a document. -/
def tag : Kind → String
  | bigInt => "big_int"
  | smallInt => "small_int"
  | tinyInt => "tiny_int"
  | kind => kind.name

end Kind

/-- The kind of a value. -/
def kind : Value → Kind
  | text _ => .text
  | bigInt _ => .bigInt
  | int _ => .int
  | smallInt _ => .smallInt
  | tinyInt _ => .tinyInt
  | boolean _ => .boolean
  | double _ => .double
  | float _ => .float
  | blob _ => .blob
  | uuid _ => .uuid
  | timestamp _ => .timestamp
  | inet _ => .inet
  | list _ => .list

/-- The integer that a value of an integer kind is. -/
def integer? : Value → Option Int
  | bigInt n => some n.toInt
  | timestamp n => some n.toInt
  | int n => some n.toInt
  | smallInt n => some n.toInt
  | tinyInt n => some n.toInt
  | _ => none

/-! ### Equality -/

mutual

/-- Two values are the same. -/
def same : Value → Value → Bool
  | text s, text t => s == t
  | bigInt m, bigInt n => m == n
  | int m, int n => m == n
  | smallInt m, smallInt n => m == n
  | tinyInt m, tinyInt n => m == n
  | boolean a, boolean b => a == b
  | double x, double y => decide (x = y)
  | float x, float y => decide (x = y)
  | blob a, blob b => a == b
  | uuid s, uuid t => s == t
  | timestamp m, timestamp n => m == n
  | inet a, inet b => decide (a = b)
  | list a, list b => sameList a b
  | _, _ => false

/-- Two lists of values are the same. -/
def sameList : List Value → List Value → Bool
  | [], [] => true
  | a :: as, b :: bs => same a b && sameList as bs
  | _, _ => false

end

mutual

theorem eq_of_same : (a b : Value) → same a b = true → a = b
  | .list a, .list b, h => congrArg Value.list (eq_of_sameList a b (by simpa [same] using h))
  | .text _, b, h => by cases b <;> simp_all [same]
  | .bigInt _, b, h => by cases b <;> simp_all [same]
  | .int _, b, h => by cases b <;> simp_all [same]
  | .smallInt _, b, h => by cases b <;> simp_all [same]
  | .tinyInt _, b, h => by cases b <;> simp_all [same]
  | .boolean _, b, h => by cases b <;> simp_all [same]
  | .double _, b, h => by cases b <;> simp_all [same]
  | .float _, b, h => by cases b <;> simp_all [same]
  | .blob _, b, h => by cases b <;> simp_all [same]
  | .uuid _, b, h => by cases b <;> simp_all [same]
  | .timestamp _, b, h => by cases b <;> simp_all [same]
  | .inet _, b, h => by cases b <;> simp_all [same]

theorem eq_of_sameList : (a b : List Value) → sameList a b = true → a = b
  | [], [], _ => rfl
  | x :: xs, y :: ys, h => by
    simp only [sameList, Bool.and_eq_true] at h
    rw [eq_of_same x y h.1, eq_of_sameList xs ys h.2]
  | [], _ :: _, h => by simp [sameList] at h
  | _ :: _, [], h => by simp [sameList] at h

end

mutual

theorem same_self : (a : Value) → same a a = true
  | .list a => by simpa [same] using sameList_self a
  | .text _ | .bigInt _ | .int _ | .smallInt _ | .tinyInt _ | .boolean _ | .double _ | .float _
  | .blob _ | .uuid _ | .timestamp _ | .inet _ => by simp [same]

theorem sameList_self : (a : List Value) → sameList a a = true
  | [] => by simp [sameList]
  | x :: xs => by simp [sameList, same_self x, sameList_self xs]

end

instance : DecidableEq Value := fun a b =>
  decidable_of_iff (same a b = true) ⟨eq_of_same a b, fun h => h ▸ same_self a⟩

end Value

end RingScan
