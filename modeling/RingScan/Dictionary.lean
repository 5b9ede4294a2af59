/-!
# Dictionaries

Texts under names, in the order of the names.

## Main definitions

* `Dictionary`: texts in the order of their names.
* `Dictionary.insert`: puts a text under a name.
* `Dictionary.texts`: the texts in the order of their names.
-/

namespace RingScan

namespace Dictionary

/-- Sorted entries in which the text of a name is replaced or added. -/
def put (name text : String) : List (String × String) → List (String × String)
  | [] => [(name, text)]
  | entry :: rest =>
    if name < entry.1 then (name, text) :: entry :: rest
    else if name = entry.1 then (name, text) :: rest
    else entry :: put name text rest

theorem mem_put {name text : String} {entries : List (String × String)} {entry : String × String}
    (h : entry ∈ put name text entries) : entry.1 = name ∨ entry ∈ entries := by
  induction entries with
  | nil => simp_all [put]
  | cons first rest ih =>
    simp only [put] at h
    split at h
    · rcases List.mem_cons.1 h with rfl | h
      · exact .inl rfl
      · exact .inr h
    · split at h
      · rcases List.mem_cons.1 h with rfl | h
        · exact .inl rfl
        · exact .inr (List.mem_cons_of_mem _ h)
      · rcases List.mem_cons.1 h with rfl | h
        · exact .inr List.mem_cons_self
        · exact (ih h).imp_right (List.mem_cons_of_mem _)

theorem sorted_put {name text : String} {entries : List (String × String)}
    (h : entries.Pairwise fun a b => a.1 < b.1) :
    (put name text entries).Pairwise fun a b => a.1 < b.1 := by
  induction entries with
  | nil => simp [put]
  | cons first rest ih =>
    obtain ⟨hfirst, hrest⟩ := List.pairwise_cons.1 h
    simp only [put]
    split
    · rename_i hlt
      refine List.pairwise_cons.2 ⟨fun entry hentry => ?_, h⟩
      rcases List.mem_cons.1 hentry with rfl | hentry
      · exact hlt
      · exact String.lt_trans hlt (hfirst entry hentry)
    · split
      · rename_i heq
        exact List.pairwise_cons.2 ⟨fun entry hentry => heq ▸ hfirst entry hentry, hrest⟩
      · rename_i hlt hne
        refine List.pairwise_cons.2 ⟨fun entry hentry => ?_, ih hrest⟩
        rcases mem_put hentry with hname | hentry
        · rw [hname]
          exact Decidable.byContradiction fun hge =>
            hne (String.le_antisymm (String.not_lt.1 hge) (String.not_lt.1 hlt))
        · exact hfirst entry hentry

end Dictionary

/-- Texts under names. -/
structure Dictionary where
  /-- The names and their texts. -/
  entries : List (String × String) := []
  /-- Each name comes before the next. -/
  sorted : entries.Pairwise (fun a b => a.1 < b.1) := by simp
  deriving DecidableEq, Repr

namespace Dictionary

instance : EmptyCollection Dictionary := ⟨{}⟩

/-- Puts a text under a name. -/
def insert (dictionary : Dictionary) (name text : String) : Dictionary :=
  ⟨put name text dictionary.entries, sorted_put dictionary.sorted⟩

/-- The texts of a list, of which a later one replaces an earlier one of the same name. -/
def ofList (entries : List (String × String)) : Dictionary :=
  entries.foldl (fun dictionary entry => dictionary.insert entry.1 entry.2) ∅

/-- The texts in the order of their names. -/
def texts (dictionary : Dictionary) : List String :=
  dictionary.entries.map (·.2)

/-- There is no text. -/
def isEmpty (dictionary : Dictionary) : Bool :=
  dictionary.entries.isEmpty

end Dictionary

end RingScan
