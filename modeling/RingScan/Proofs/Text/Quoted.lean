import Mathlib.Data.List.Basic
import RingScan.Text.Quoted

/-!
# Quoted texts read back

Each text is quoted in one way, and no two texts are quoted alike.  The quoted texts are known by
their characters: there is a quote character at each end, not the same one, and every run of quote
characters between the two has an even length, because quote characters are written in pairs and
read in pairs.

## Main definitions

* `Text.PairedRuns`: every run of a character has an even length.

## Main statements

* `Text.undoubled?_eq_some_iff`, `Text.unquoted?_eq_some_iff`: what is read back is what was
  written.
* `Text.exists_doubled_iff`: which texts may stand between quotes.
* `Text.readIdentifier?_iff`: both for identifiers.
-/

namespace RingScan.Text

variable {quote : Char} {cs text : List Char}

/-! ### Reading what is written -/

theorem undoubled?_doubled (quote : Char) (text : List Char) :
    undoubled? quote (doubled quote text) = some text := by
  induction text with
  | nil => rfl
  | cons c text ih =>
    by_cases hc : c = quote
    · rw [doubled, if_pos hc, undoubled?, if_pos hc, if_pos hc, ih, Option.map_some]
    · rw [doubled, if_neg hc]
      cases hrest : doubled quote text with
      | nil =>
        rw [hrest] at ih
        rw [undoubled?, if_neg hc, Option.some.inj ih]
      | cons d rest => rw [undoubled?, if_neg hc, ← hrest, ih, Option.map_some]

theorem eq_doubled_of_undoubled? (h : undoubled? quote cs = some text) :
    cs = doubled quote text := by
  fun_induction undoubled? quote cs generalizing text with
  | case1 =>
    cases h
    rfl
  | case2 => cases h
  | case3 c hc =>
    cases h
    rw [doubled, if_neg hc, doubled]
  | case4 cs ih =>
    obtain ⟨rest, hrest, rfl⟩ := Option.map_eq_some_iff.1 h
    rw [doubled, if_pos rfl, ← ih hrest]
  | case5 => cases h
  | case6 c d cs hc ih =>
    obtain ⟨rest, hrest, rfl⟩ := Option.map_eq_some_iff.1 h
    rw [doubled, if_neg hc, ← ih hrest]

/-- What pairs of quote characters are read as is what was written. -/
theorem undoubled?_eq_some_iff : undoubled? quote cs = some text ↔ cs = doubled quote text :=
  ⟨eq_doubled_of_undoubled?, fun h => h ▸ undoubled?_doubled quote text⟩

/-- What a quoted text is read as is what was quoted. -/
theorem unquoted?_eq_some_iff : unquoted? quote cs = some text ↔ cs = quoted quote text := by
  cases cs with
  | nil => exact iff_of_false nofun nofun
  | cons c cs =>
    rw [unquoted?, quoted, List.cons.injEq]
    by_cases hends : c = quote ∧ cs.getLast? = some quote
    · obtain ⟨hc, hlast⟩ := hends
      obtain ⟨inner, rfl⟩ : ∃ inner, cs = inner ++ [quote] :=
        ⟨cs.dropLast, (List.dropLast_append_getLast? quote hlast).symm⟩
      rw [if_pos ⟨hc, hlast⟩, List.dropLast_concat, undoubled?_eq_some_iff, and_iff_right hc,
        List.append_left_inj]
    · rw [if_neg hends]
      refine iff_of_false nofun fun ⟨hc, hcs⟩ => hends ⟨hc, ?_⟩
      rw [hcs, List.getLast?_concat]

/-! ### Runs of quote characters -/

/-- Every run of the character, taken as far as it goes to both sides, has an even length. -/
def PairedRuns (quote : Char) (cs : List Char) : Prop :=
  ∀ before n after, cs = before ++ List.replicate n quote ++ after →
    before.getLast? ≠ some quote → after.head? ≠ some quote → 2 ∣ n

theorem pairedRuns_nil : PairedRuns quote [] := by
  intro before n after h _ _
  obtain ⟨hrun, -⟩ := List.append_eq_nil_iff.1 h.symm
  obtain ⟨-, hrun⟩ := List.append_eq_nil_iff.1 hrun
  rw [List.replicate_eq_nil_iff] at hrun
  exact hrun ▸ Nat.dvd_zero 2

/-- A quote character that no other one follows is a run by itself. -/
theorem not_pairedRuns_quote (h : cs.head? ≠ some quote) : ¬ PairedRuns quote (quote :: cs) :=
  fun hruns => absurd (hruns [] 1 cs rfl nofun h) (by decide)

theorem pairedRuns_cons_of_ne {c : Char} (hc : c ≠ quote) :
    PairedRuns quote (c :: cs) ↔ PairedRuns quote cs := by
  constructor
  · intro h before n after hcs hbefore hafter
    refine h (c :: before) n after (congrArg (c :: ·) hcs) ?_ hafter
    rw [List.getLast?_cons]
    cases hlast : before.getLast? with
    | none => exact fun heq => hc (Option.some.inj heq)
    | some d => exact fun heq => hbefore (hlast.trans heq)
  · intro h before n after hcs hbefore hafter
    match before, n with
    | [], 0 => exact Nat.dvd_zero 2
    | [], n + 1 => exact absurd (List.cons.inj hcs).1 hc
    | b :: before, n =>
      obtain ⟨-, hrest⟩ := List.cons.inj hcs
      refine h before n after hrest (fun hlast => hbefore ?_) hafter
      rw [List.getLast?_cons, hlast, Option.getD_some]

theorem pairedRuns_pair : PairedRuns quote (quote :: quote :: cs) ↔ PairedRuns quote cs := by
  constructor
  · intro h before n after hcs hbefore hafter
    match before with
    | [] =>
      have hlong := h [] (n + 2) after (congrArg (quote :: quote :: ·) hcs) nofun hafter
      omega
    | b :: before =>
      exact h (quote :: quote :: b :: before) n after (congrArg (quote :: quote :: ·) hcs) hbefore
        hafter
  · intro h before n after hcs hbefore hafter
    match before, n with
    | [], 0 => exact Nat.dvd_zero 2
    | [], 1 => exact absurd (congrArg List.head? (List.cons.inj hcs).2).symm hafter
    | [], n + 2 =>
      have hshort := h [] n after (List.cons.inj (List.cons.inj hcs).2).2 nofun hafter
      omega
    | [b], n => exact absurd (congrArg some (List.cons.inj hcs).1.symm) hbefore
    | b :: d :: before, n =>
      obtain ⟨-, hrest⟩ := List.cons.inj hcs
      obtain ⟨hd, hrest⟩ := List.cons.inj hrest
      refine h before n after hrest (fun hlast => hbefore ?_) hafter
      rw [List.getLast?_cons, List.getLast?_cons, hlast, Option.getD_some, Option.getD_some]

/-- Which texts are read between quotes. -/
theorem isSome_undoubled?_iff : (undoubled? quote cs).isSome = true ↔ PairedRuns quote cs := by
  fun_induction undoubled? quote cs with
  | case1 => exact iff_of_true rfl pairedRuns_nil
  | case2 => exact iff_of_false nofun (not_pairedRuns_quote nofun)
  | case3 c hc => exact iff_of_true rfl ((pairedRuns_cons_of_ne hc).2 pairedRuns_nil)
  | case4 cs ih => rw [Option.isSome_map, ih, pairedRuns_pair]
  | case5 d cs hd =>
    exact iff_of_false nofun (not_pairedRuns_quote fun h => hd (Option.some.inj h))
  | case6 c d cs hc ih => rw [Option.isSome_map, ih, pairedRuns_cons_of_ne hc]

/-- The texts that may stand between quotes are those whose runs of quote characters pair up. -/
theorem exists_doubled_iff : (∃ text, cs = doubled quote text) ↔ PairedRuns quote cs := by
  simp only [← isSome_undoubled?_iff, Option.isSome_iff_exists, undoubled?_eq_some_iff]

/-- Which texts are between quotes: those with a quote character at each end and runs that pair up
between the two. -/
theorem exists_quoted_iff : (∃ text, cs = quoted quote text) ↔
    ∃ inner, cs = quote :: (inner ++ [quote]) ∧ PairedRuns quote inner := by
  simp only [← exists_doubled_iff]
  constructor
  · rintro ⟨text, rfl⟩
    exact ⟨doubled quote text, rfl, text, rfl⟩
  · rintro ⟨_, rfl, text, rfl⟩
    exact ⟨text, rfl⟩

/-! ### Identifiers -/

/-- **Quoting is undone exactly.**  A text is read as an identifier if and only if it is what is
written for the identifier, and it is refused if and only if it does not start with a quote
character and end with another one, or holds a run of quote characters between the two that does not
pair up. -/
theorem readIdentifier?_iff (written : String) :
    (∀ name, readIdentifier? written = some name ↔ written = identifier name) ∧
      (readIdentifier? written = none ↔
        ¬ ∃ inner, written.toList = '"' :: (inner ++ ['"']) ∧ PairedRuns '"' inner) := by
  constructor
  · intro name
    rw [readIdentifier?, identifier, Option.map_eq_some_iff, ← String.toList_inj,
      String.toList_ofList]
    simp only [unquoted?_eq_some_iff]
    constructor
    · rintro ⟨text, hwritten, rfl⟩
      rw [hwritten, String.toList_ofList]
    · exact fun hwritten => ⟨name.toList, hwritten, String.ofList_toList⟩
  · rw [readIdentifier?, Option.map_eq_none_iff, ← exists_quoted_iff,
      ← Option.not_isSome_iff_eq_none, Option.isSome_iff_exists]
    simp only [unquoted?_eq_some_iff]

/-- A single quote character does not quote anything, and three of them in a row do not either. -/
example : readIdentifier? "\"" = none ∧ readIdentifier? "\"\"\"" = none ∧
    readIdentifier? "\"a\"\"\"" = some "a\"" := by decide

end RingScan.Text
