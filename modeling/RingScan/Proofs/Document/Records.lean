import Mathlib.Data.List.Forall2
import RingScan.Proofs.Document.Scalars

/-!
# Collections read back

A list reads back when each of its items does, and an object when each of its members does: what
follows an item is a comma or the closing bracket, both of which end a value.  A record is written
with all its members in their order, so each member is read into a slot that is still empty, and the
whole record is there in the end.

## Main definitions

* `Document.Fills`: the members of an object, read one after another.
* `Document.FillsInOrder`: the same for the members of a record, one for each field.

## Main statements

* `Document.reads_sequence`, `Document.reads_mapping`: lists and dictionaries read back.
* `Document.reads_tagged`, `Document.reads_choice`: one of several cases reads back.
* `Document.reads_record`: a record reads back whose members do.
-/

namespace RingScan.Document

/-! ### Commas -/

theorem separated_cons (item : List Char) (rest : List (List Char)) :
    separated (item :: rest) = item ++ rest.flatMap (',' :: ·) := by
  induction rest generalizing item with
  | nil => simp [separated]
  | cons next rest ih =>
    rw [separated, ih, List.flatMap_cons, List.cons_append]
    exact List.cons_ne_nil next rest

theorem length_le_flatMap_comma (texts : List (List Char)) :
    texts.length ≤ (texts.flatMap (',' :: ·)).length := by
  induction texts with
  | nil => exact Nat.le_refl _
  | cons text texts ih =>
    rw [List.flatMap_cons, List.length_append, List.length_cons, List.length_cons]
    omega

/-- After an item comes a comma or the closing bracket, and both end a value. -/
theorem ends_further (texts : List (List Char)) {closing : Char}
    (hclosing : closing = ']' ∨ closing = '}') (rest : List Char) :
    Ends (texts.flatMap (',' :: ·) ++ closing :: rest) := by
  cases texts with
  | nil => exact ends_cons (.inr hclosing)
  | cons text texts => exact ends_cons (.inl rfl)

/-- A comma leads on to what starts a value. -/
theorem separator_comma {s : List Char} (h : Opens s) : separator ']' ',' s = .ok s := by
  obtain ⟨c, t, rfl, hblank, hc⟩ := h
  rw [separator, if_pos rfl, skipBlank_cons hblank]
  exact if_neg hc

/-! ### Lists -/

section Lists

variable {α : Type} {item : Reader α} {written : List Char} {texts : List (List Char)} {x : α}
  {xs : List α} {fuel rest : List Char}

theorem Opens.append (h : Opens written) (s : List Char) : Opens (written ++ s) := by
  obtain ⟨c, t, rfl, hblank, hc⟩ := h
  exact ⟨c, t ++ s, rfl, hblank, hc⟩

theorem items_close (item : Reader α) (f : Char) (fuel : List Char) (first : Bool)
    (rest : List Char) : items item (f :: fuel) first (']' :: rest) = .ok ([], rest) :=
  rfl

theorem items_comma (item : Reader α) (f : Char) (fuel s : List Char) :
    items item (f :: fuel) false (',' :: s) = (do
      let s ← separator ']' ',' s
      let (x, s) ← item s
      let (xs, s) ← items item fuel false s
      .ok (x :: xs, s)) :=
  rfl

/-- One item is read, at the start of a list or after a comma. -/
theorem items_item {further : List Char} (hitem : Reads item written x) (hends : Ends further)
    (hfurther : items item fuel false further = .ok (xs, rest)) (first : Bool) (f : Char) :
    items item (f :: fuel) first ((if first then [] else [',']) ++ (written ++ further)) =
      .ok (x :: xs, rest) := by
  cases first with
  | false =>
    rw [if_neg Bool.false_ne_true, List.singleton_append, items_comma,
      separator_comma (hitem.opens.append further)]
    simp only [bind, Except.bind, hitem.reads further hends, hfurther]
  | true =>
    have hread := hitem.reads further hends
    obtain ⟨c, t, hwritten, hblank, hc⟩ := hitem.opens.append further
    rw [hwritten] at hread
    rw [if_pos rfl, List.nil_append, hwritten, items, skipBlank_cons hblank]
    split
    · rename_i heq
      cases heq
    · rename_i heq
      exact absurd (List.cons.inj heq).1 hc
    · rename_i heq
      obtain ⟨rfl, rfl⟩ := List.cons.inj heq
      simp only [if_true, bind, Except.bind, hread, hfurther]

/-- Items after commas are read to the closing bracket, as long as there is fuel for each. -/
theorem items_further (h : List.Forall₂ (Reads item) texts xs) (rest : List Char)
    (hfuel : texts.length < fuel.length) :
    items item fuel false (texts.flatMap (',' :: ·) ++ ']' :: rest) = .ok (xs, rest) := by
  induction h generalizing fuel with
  | nil =>
    obtain ⟨f, fuel, rfl⟩ := List.exists_cons_of_length_pos hfuel
    exact items_close item f fuel false rest
  | @cons text x texts xs hitem _ ih =>
    obtain ⟨f, fuel, rfl⟩ := List.exists_cons_of_length_pos (Nat.zero_lt_of_lt hfuel)
    rw [List.flatMap_cons, List.cons_append, List.cons_append, List.append_assoc]
    exact items_item hitem (ends_further texts (.inl rfl) rest)
      (ih (Nat.lt_of_succ_lt_succ hfuel)) false f

/-- A list reads back whose items do. -/
theorem reads_sequence (h : List.Forall₂ (Reads item) texts xs) :
    Reads (sequence item) (writeList texts) xs where
  opens := opens_cons (by decide) (by decide)
  reads rest _ := by
    rw [writeList, List.cons_append, List.append_assoc, List.singleton_append, sequence,
      skipBlank_cons (by decide)]
    cases h with
    | nil => exact items_close item ']' rest true rest
    | @cons text x texts xs hitem hitems =>
      -- The fuel is the text itself, of which the first item and each comma take a character.
      have hlength := length_le_flatMap_comma texts
      obtain ⟨c, t, htext, -⟩ := hitem.opens
      have hlt : texts.length < (t ++ (texts.flatMap (',' :: ·) ++ ']' :: rest)).length := by
        simp only [List.length_append, List.length_cons]
        omega
      have hread := items_item hitem (ends_further texts (.inl rfl) rest)
        (items_further hitems rest hlt) true c
      rw [if_pos rfl, List.nil_append] at hread
      rw [← List.cons_append, ← htext] at hread
      simp only
      rw [separated_cons, List.append_assoc]
      exact hread

/-- A list of values, each with its document. -/
theorem reads_sequence_map {write : α → List Char} (h : ∀ x ∈ xs, Reads item (write x) x) :
    Reads (sequence item) (writeList (xs.map write)) xs :=
  reads_sequence (List.forall₂_map_left_iff.2 (List.forall₂_same.2 h))

end Lists

/-! ### Objects -/

section Objects

variable {δ : Type} {member : δ → String → Except Fault (Reader δ)} {d d' d'' : δ}
  {name : String} {value : List Char} {members : List (String × List Char)} {fuel rest : List Char}

/-- The members of an object, read one after another, take what has been read from the first to the
second. -/
inductive Fills (member : δ → String → Except Fault (Reader δ)) :
    δ → List (String × List Char) → δ → Prop
  | nil (d : δ) : Fills member d [] d
  | cons {d d' d'' : δ} {name : String} {value : List Char} {members : List (String × List Char)}
      {read : Reader δ} (hmember : member d name = .ok read) (hread : Reads read value d')
      (hmembers : Fills member d' members d'') : Fills member d ((name, value) :: members) d''

theorem writeMember_append (name : String) (value further : List Char) :
    writeMember name value ++ further =
      '"' :: (name.toList.flatMap writeChar ++ '"' :: ':' :: (value ++ further)) := by
  simp [writeMember, writeText]

theorem membersFrom_close (member : δ → String → Except Fault (Reader δ)) (f : Char)
    (fuel : List Char) (first : Bool) (d : δ) (rest : List Char) :
    membersFrom member (f :: fuel) first d ('}' :: rest) = .ok (d, rest) :=
  rfl

theorem membersFrom_quote (member : δ → String → Except Fault (Reader δ)) (f : Char)
    (fuel : List Char) (first : Bool) (d : δ) (s : List Char) :
    membersFrom member (f :: fuel) first d ((if first then [] else [',']) ++ '"' :: s) = (do
      let (name, s) ← textFrom s
      let value ← member d (String.ofList name)
      let (d, s) ← value (← colon s)
      membersFrom member fuel false d s) := by
  cases first <;> rfl

theorem colon_colon (s : List Char) : colon (':' :: s) = .ok s :=
  rfl

/-- One member is read, at the start of an object or after a comma. -/
theorem membersFrom_member {read : Reader δ} {further : List Char}
    (hmember : member d name = .ok read) (hread : Reads read value d') (hends : Ends further)
    (hfurther : membersFrom member fuel false d' further = .ok (d'', rest)) (first : Bool)
    (f : Char) :
    membersFrom member (f :: fuel) first d
      ((if first then [] else [',']) ++ (writeMember name value ++ further)) = .ok (d'', rest) := by
  rw [writeMember_append, membersFrom_quote]
  simp only [bind, Except.bind, textFrom_written, String.ofList_toList, hmember, colon_colon,
    hread.reads further hends, hfurther]

theorem membersFrom_further (h : Fills member d members d') (rest : List Char)
    (hfuel : members.length < fuel.length) :
    membersFrom member fuel false d
      ((members.map fun m => writeMember m.1 m.2).flatMap (',' :: ·) ++ '}' :: rest) =
        .ok (d', rest) := by
  induction h generalizing fuel with
  | nil d =>
    obtain ⟨f, fuel, rfl⟩ := List.exists_cons_of_length_pos hfuel
    exact membersFrom_close member f fuel false d rest
  | cons hmember hread _ ih =>
    obtain ⟨f, fuel, rfl⟩ := List.exists_cons_of_length_pos (Nat.zero_lt_of_lt hfuel)
    rw [List.map_cons, List.flatMap_cons, List.cons_append, List.cons_append, List.append_assoc]
    exact membersFrom_member hmember hread (ends_further _ (.inr rfl) rest)
      (ih (Nat.lt_of_succ_lt_succ hfuel)) false f

/-- The members of an object are read to its closing brace. -/
theorem membersFrom_written (h : Fills member d members d') (rest : List Char) :
    let s := separated (members.map fun m => writeMember m.1 m.2) ++ '}' :: rest
    membersFrom member s true d s = .ok (d', rest) := by
  intro s
  cases h with
  | nil => exact membersFrom_close member '}' rest true d rest
  | @cons _ _ _ name value members read hmember hread hmembers =>
    have hlength := length_le_flatMap_comma (members.map fun m => writeMember m.1 m.2)
    have hs : s = writeMember name value ++
        ((members.map fun m => writeMember m.1 m.2).flatMap (',' :: ·) ++ '}' :: rest) := by
      rw [← List.append_assoc, ← separated_cons]
      rfl
    obtain ⟨fuel, hfuel, hlt⟩ : ∃ fuel, s = '"' :: fuel ∧ members.length < fuel.length := by
      refine ⟨_, hs.trans (writeMember_append name value _), ?_⟩
      rw [List.length_map] at hlength
      simp only [List.length_append, List.length_cons]
      omega
    have hread := membersFrom_member hmember hread (ends_further _ (.inr rfl) rest)
      (membersFrom_further hmembers rest hlt) true '"'
    rw [← hfuel, if_pos rfl, List.nil_append, ← hs] at hread
    exact hread

end Objects

section Mappings

variable {α : Type} {value : Reader α} (write : α → List Char) {entries : List (String × α)}

/-- The entries of a dictionary are kept as they come, the last one first. -/
theorem fills_entries (h : ∀ entry ∈ entries, Reads value (write entry.2) entry.2)
    (d : List (String × α)) :
    Fills (fun d name => .ok fun s => (value s).map fun p => ((name, p.1) :: d, p.2)) d
      (entries.map fun entry => (entry.1, write entry.2)) (entries.reverse ++ d) := by
  induction entries generalizing d with
  | nil => exact .nil d
  | cons entry entries ih =>
    obtain ⟨hentry, hentries⟩ := List.forall_mem_cons.1 h
    rw [List.reverse_cons, List.append_assoc, List.singleton_append]
    exact .cons rfl (hentry.map fun x => (entry.1, x) :: d) (ih hentries _)

/-- A dictionary reads back whose values do. -/
theorem reads_mapping (h : ∀ entry ∈ entries, Reads value (write entry.2) entry.2) :
    Reads (mapping value) (writeMembers (entries.map fun entry => (entry.1, write entry.2)))
      entries where
  opens := opens_cons (by decide) (by decide)
  reads rest _ := by
    have hread := membersFrom_written (fills_entries write h []) rest
    rw [mapping, members, writeMembers, List.cons_append, List.append_assoc,
      List.singleton_append, skipBlank_cons (by decide)]
    simp only at hread ⊢
    rw [hread, List.append_nil]
    simp only [Except.map, List.reverse_reverse]

end Mappings

/-! ### Cases -/

/-- A case that holds a value reads back when the value does. -/
theorem reads_tagged {α : Type} {bare : String → Option α} {holding : String → Option (Reader α)}
    (tag : String) {value : Reader α} {written : List Char} {x : α}
    (hholding : holding tag = some value) (h : Reads value written x) :
    Reads (tagged false bare holding) (writeMembers [(tag, written)]) x where
  opens := opens_cons (by decide) (by decide)
  reads rest _ := by
    have hread := h.reads ('}' :: rest) (ends_cons (.inr (.inr rfl)))
    have hwritten : writeMembers [(tag, written)] ++ rest =
        '{' :: (writeText tag ++ ':' :: (written ++ '}' :: rest)) := by
      simp [writeMembers, writeMember, separated]
    rw [hwritten, tagged, skipBlank_cons (by decide)]
    simp only [Bool.false_eq_true, if_false, bind, Except.bind, text_writeText, hholding,
      colon_colon, hread]
    rfl

/-- A case that holds nothing reads back from its name. -/
theorem reads_choice {α : Type} {case : String → Option α} {tag : String} {x : α}
    (hcase : case tag = some x) : Reads (choice case) (writeText tag) x where
  opens := opens_cons (by decide) (by decide)
  reads rest _ := by
    have hwritten : writeText tag ++ rest =
        '"' :: (tag.toList.flatMap writeChar ++ '"' :: rest) := by
      simp [writeText]
    rw [hwritten, choice, tagged, skipBlank_cons (by decide)]
    simp only [bind, Except.bind, textFrom_written, String.ofList_toList, hcase]

theorem reads_optional_none {α : Type} (value : Reader α) :
    Reads (optional value) writeNull none where
  opens := opens_cons (by decide) (by decide)
  reads _ _ := rfl

/-- An object stands for a value, not for nothing. -/
theorem reads_optional_some {α : Type} {value : Reader α} {members : List (String × List Char)}
    {x : α} (h : Reads value (writeMembers members) x) :
    Reads (optional value) (writeMembers members) (some x) where
  opens := h.opens
  reads rest hrest := by
    have hbrace (s : List Char) : optional value ('{' :: s) =
        (value ('{' :: s)).map (fun p => (some p.1, p.2)) := rfl
    have hread := h.reads rest hrest
    rw [writeMembers, List.cons_append] at hread ⊢
    rw [hbrace, hread]
    rfl

/-! ### Records -/

section Records

variable {δ : Type} {fields : List (Member δ)}

/-- A field is found by its name, as no other field has that name. -/
theorem find?_name_of_mem {field : Member δ} (hnames : (fields.map Member.name).Nodup)
    (hmem : field ∈ fields) : fields.find? (·.name == field.name) = some field := by
  induction fields with
  | nil => cases hmem
  | cons first fields ih =>
    obtain ⟨hfirst, hfields⟩ := List.nodup_cons.1 hnames
    rcases List.mem_cons.1 hmem with rfl | hmem
    · exact List.find?_cons_of_pos (beq_self_eq_true _)
    · have hne : first.name ≠ field.name := fun heq =>
        hfirst (heq ▸ List.mem_map_of_mem hmem)
      rw [List.find?_cons_of_neg (by simpa using hne)]
      exact ih hfields hmem

theorem fieldMember_of_mem {field : Member δ} {d : δ} (hnames : (fields.map Member.name).Nodup)
    (hmem : field ∈ fields) (hempty : field.isFilled d = false) :
    fieldMember fields d field.name = .ok (field.read d) := by
  rw [fieldMember, find?_name_of_mem hnames hmem]
  simp [hempty]

/-- The members of a record in the order of its fields, each read into a slot that is empty, take
what has been read from the first to the second. -/
inductive FillsInOrder : List (Member δ) → δ → List (String × List Char) → δ → Prop
  | nil (d : δ) : FillsInOrder [] d [] d
  | cons {field : Member δ} {fields : List (Member δ)} {d d' d'' : δ} {value : List Char}
      {members : List (String × List Char)} (hempty : field.isFilled d = false)
      (hread : Reads (field.read d) value d') (hfields : FillsInOrder fields d' members d'') :
      FillsInOrder (field :: fields) d ((field.name, value) :: members) d''

/-- A field that keeps what its reader gives. -/
theorem FillsInOrder.slot {α : Type} {name : String} {get : δ → Option α} {set : δ → α → δ}
    {value : Reader α} {written : List Char} {x : α} {d d' : δ}
    {members : List (String × List Char)} (hread : Reads value written x)
    (hempty : (get d).isSome = false) (hfields : FillsInOrder fields (set d x) members d') :
    FillsInOrder (Member.slot name get set value :: fields) d ((name, written) :: members) d' :=
  .cons hempty (hread.map (set d)) hfields

theorem FillsInOrder.fills {suffix : List (Member δ)} {d d' : δ}
    {members : List (String × List Char)} (hnames : (fields.map Member.name).Nodup)
    (hsuffix : suffix ⊆ fields) (h : FillsInOrder suffix d members d') :
    Fills (fieldMember fields) d members d' := by
  induction h with
  | nil d => exact .nil d
  | cons hempty hread _ ih =>
    obtain ⟨hmem, hsuffix⟩ := List.cons_subset.1 hsuffix
    exact .cons (fieldMember_of_mem hnames hmem hempty) hread (ih hsuffix)

/-- A record reads back when it is written with all its members in their order and each of them
reads back. -/
theorem reads_record {α : Type} {start d : δ} {finish : δ → Option α} {x : α}
    {members : List (String × List Char)} (hnames : (fields.map Member.name).Nodup)
    (h : FillsInOrder fields start members d) (hfinish : finish d = some x) :
    Reads (record fields start finish) (writeMembers members) x where
  opens := opens_cons (by decide) (by decide)
  reads rest _ := by
    have hread := membersFrom_written (h.fills hnames (List.Subset.refl _)) rest
    rw [writeMembers, List.cons_append, List.append_assoc, List.singleton_append, record,
      skipBlank_cons (by decide)]
    simp only at hread ⊢
    simp only [bind, Except.bind, hread, hfinish]

end Records

end RingScan.Document
