/-!
# Blank characters

The characters that separate words in names, numbers and endpoints, and the removal of those that
surround a text.

## Main definitions

* `Text.isBlank`: the characters with the Unicode property White_Space.
* `Text.trim`: a text without the blanks at its two ends.

## Main statements

* `Text.trim_trim`: a trimmed text has no blanks at its ends.
* `Text.trim_eq_empty_iff`: nothing is left of a text of blanks, and of no other text.
* `Text.trimChars_append`: blanks put around a text are taken away again.
-/

namespace RingScan.Text

/-- A character is blank when it has the Unicode property White_Space. -/
def isBlank (c : Char) : Bool :=
  let n := c.toNat
  (9 ≤ n && n ≤ 13) || n == 0x20 || n == 0x85 || n == 0xA0 || n == 0x1680 ||
    (0x2000 ≤ n && n ≤ 0x200A) || n == 0x2028 || n == 0x2029 || n == 0x202F || n == 0x205F ||
    n == 0x3000

/-- The characters of a text without the blanks at its two ends. -/
def trimChars (cs : List Char) : List Char :=
  ((cs.dropWhile isBlank).reverse.dropWhile isBlank).reverse

/-- A text without the blanks at its two ends. -/
def trim (s : String) : String :=
  String.ofList (trimChars s.toList)

/-- A text that holds nothing but blanks. -/
def isAllBlank (s : String) : Bool :=
  s.toList.all isBlank

/-- A text with its ASCII capitals replaced by small letters; other characters stay. -/
def asciiLower (s : String) : String :=
  String.ofList (s.toList.map Char.toLower)

/-- Two texts are equal up to the case of ASCII letters. -/
def sameIgnoringCase (s t : String) : Bool :=
  s.toList.map Char.toLower == t.toList.map Char.toLower

/-! ### Trimmed texts -/

theorem dropWhile_isBlank_of_head? {cs : List Char}
    (h : ∀ c, cs.head? = some c → isBlank c = false) : cs.dropWhile isBlank = cs := by
  cases cs with
  | nil => rfl
  | cons c cs => rw [List.dropWhile_cons, h c rfl, if_neg Bool.false_ne_true]

theorem isBlank_of_head?_dropWhile {cs : List Char} {c : Char}
    (h : (cs.dropWhile isBlank).head? = some c) : isBlank c = false := by
  have hnot := List.head?_dropWhile_not isBlank cs
  rwa [h] at hnot

theorem dropWhile_isBlank_eq_nil_iff {cs : List Char} :
    cs.dropWhile isBlank = [] ↔ cs.all isBlank = true := by
  induction cs with
  | nil => simp
  | cons c cs ih => by_cases h : isBlank c = true <;> simp [h, ih]

theorem trimChars_prefix (cs : List Char) : trimChars cs <+: cs.dropWhile isBlank := by
  rw [trimChars, ← List.reverse_suffix, List.reverse_reverse]
  exact List.dropWhile_suffix isBlank

theorem trimChars_trimChars (cs : List Char) : trimChars (trimChars cs) = trimChars cs := by
  have hhead : (trimChars cs).dropWhile isBlank = trimChars cs := by
    refine dropWhile_isBlank_of_head? fun c hc => ?_
    obtain ⟨rest, hrest⟩ := trimChars_prefix cs
    have hfirst : (cs.dropWhile isBlank).head? = some c := by
      rw [← hrest, List.head?_append, hc]
      rfl
    exact isBlank_of_head?_dropWhile hfirst
  have hlast : (trimChars cs).reverse.dropWhile isBlank = (trimChars cs).reverse := by
    refine dropWhile_isBlank_of_head? fun c hc => ?_
    rw [trimChars, List.reverse_reverse] at hc
    exact isBlank_of_head?_dropWhile hc
  rw [trimChars, hhead, hlast, List.reverse_reverse]

theorem trimChars_eq_nil_iff {cs : List Char} : trimChars cs = [] ↔ cs.all isBlank = true := by
  have hdrop : (cs.dropWhile isBlank).dropWhile isBlank = cs.dropWhile isBlank :=
    dropWhile_isBlank_of_head? fun _ => isBlank_of_head?_dropWhile
  rw [trimChars, List.reverse_eq_nil_iff, dropWhile_isBlank_eq_nil_iff, List.all_reverse,
    ← dropWhile_isBlank_eq_nil_iff, hdrop, dropWhile_isBlank_eq_nil_iff]

/-- A text that neither starts nor ends with a blank is not changed by trimming. -/
theorem trimChars_of_ends {cs : List Char} (hfirst : ∀ c, cs.head? = some c → isBlank c = false)
    (hlast : ∀ c, cs.getLast? = some c → isBlank c = false) : trimChars cs = cs := by
  rw [trimChars, dropWhile_isBlank_of_head? hfirst,
    dropWhile_isBlank_of_head? fun c hc => hlast c (List.head?_reverse ▸ hc), List.reverse_reverse]

/-- A text without blanks is not changed by trimming. -/
theorem trimChars_eq_self {cs : List Char} (h : ∀ c ∈ cs, isBlank c = false) :
    trimChars cs = cs :=
  trimChars_of_ends (fun c hc => h c (List.mem_of_head? hc))
    fun c hc => h c (List.mem_of_getLast? hc)

/-- Blanks around a text make no difference. -/
theorem trimChars_append {before after : List Char} (cs : List Char)
    (hbefore : before.all isBlank = true) (hafter : after.all isBlank = true) :
    trimChars (before ++ cs ++ after) = trimChars cs := by
  have hdropAfter : after.reverse.dropWhile isBlank = [] := by
    rwa [dropWhile_isBlank_eq_nil_iff, List.all_reverse]
  have hdropBefore :
      (before ++ cs ++ after).dropWhile isBlank = (cs ++ after).dropWhile isBlank := by
    rw [List.append_assoc, List.dropWhile_append_of_pos (List.all_eq_true.1 hbefore)]
  rw [trimChars, hdropBefore, List.dropWhile_append]
  split
  · rename_i hnone
    rw [trimChars, List.isEmpty_iff.1 hnone, dropWhile_isBlank_eq_nil_iff.2 hafter]
  · rw [List.reverse_append, List.dropWhile_append, hdropAfter]
    rfl

@[simp] theorem trim_trim (s : String) : trim (trim s) = trim s := by
  rw [trim, trim, String.toList_ofList, trimChars_trimChars]

theorem trim_eq_empty_iff {s : String} : trim s = "" ↔ isAllBlank s = true := by
  rw [trim, isAllBlank, ← trimChars_eq_nil_iff, ← String.ofList_nil, String.ofList_inj]

end RingScan.Text
