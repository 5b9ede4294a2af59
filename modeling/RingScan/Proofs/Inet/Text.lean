import RingScan.Inet.Text
import RingScan.Proofs.Text.Digits

/-!
# Addresses read back

The text of an address stands for the address.  A four-byte address is read by its points, and no
text of groups has one, except where the last four bytes of an address are written so.  Of the
groups that a double colon leaves out the reader only knows how many they are, which is enough: the
run that is left out consists of zeros, and there are eight groups in all.

## Main statements

* `Inet.longestZeros_spec`: the longest run of zeros is a run of zeros.
* `Inet.readGroups_writeGroups`: groups read back, up to a double colon or the end.
* `Inet.Address.read?_write`: every address reads back.
-/

namespace RingScan.Inet

open Text

/-! ### Groups of bytes -/

theorem groupsOf_singleton (b : UInt8) : groupsOf [b] = [] := by
  simp [groupsOf]

theorem length_groupsOf (bytes : Bytes) : (groupsOf bytes).length = bytes.length / 2 := by
  induction bytes using groupsOf.induct with
  | case1 high low rest ih =>
    rw [groupsOf, List.length_cons, ih, List.length_cons, List.length_cons]
    omega
  | case2 bytes hshort =>
    match bytes with
    | [] => rfl
    | [b] => simp [groupsOf_singleton]
    | high :: low :: rest => exact absurd rfl (hshort high low rest)

theorem drop_groupsOf (k : ℕ) (bytes : Bytes) :
    (groupsOf bytes).drop k = groupsOf (bytes.drop (2 * k)) := by
  induction k generalizing bytes with
  | zero => rfl
  | succ k ih =>
    match bytes with
    | [] => rfl
    | [b] =>
      rw [groupsOf_singleton]
      rfl
    | high :: low :: rest => exact ih rest

theorem lt_of_mem_groupsOf {bytes : Bytes} {g : ℕ} (h : g ∈ groupsOf bytes) : g < 65536 := by
  induction bytes using groupsOf.induct with
  | case1 high low rest ih =>
    rw [groupsOf, List.mem_cons] at h
    rcases h with rfl | h
    · have hhigh := high.toNat_lt
      have hlow := low.toNat_lt
      omega
    · exact ih h
  | case2 bytes hshort =>
    rw [groupsOf.eq_def] at h
    split at h
    · exact absurd rfl (hshort _ _ _)
    · cases h

/-- The groups of an even number of bytes hold the bytes. -/
theorem bytesOf_groupsOf {bytes : Bytes} (h : bytes.length % 2 = 0) :
    bytesOf (groupsOf bytes) = bytes := by
  induction bytes using groupsOf.induct with
  | case1 high low rest ih =>
    have hlow := low.toNat_lt
    have hdiv : (high.toNat * 256 + low.toNat) / 256 = high.toNat := by omega
    have hmod : (high.toNat * 256 + low.toNat) % 256 = low.toNat := by omega
    have hrest : bytesOf (groupsOf rest) = rest :=
      ih (by simp only [List.length_cons] at h; omega)
    rw [bytesOf] at hrest
    rw [groupsOf, bytesOf, List.flatMap_cons, hrest, hdiv, hmod, UInt8.ofNat_toNat,
      UInt8.ofNat_toNat]
    rfl
  | case2 bytes hshort =>
    match bytes, h with
    | [], _ => rfl
    | [_], h => exact absurd h (by simp)
    | high :: low :: rest, _ => exact absurd rfl (hshort high low rest)

/-! ### Four bytes -/

theorem readOctet_digits (b : UInt8) {rest : List Char}
    (hrest : rest.head?.any Char.isDigit = false) :
    readOctet (digits b.toNat ++ rest) = some (b, rest) := by
  have hb := b.toNat_lt
  have hnonempty : (digits b.toNat).isEmpty = false :=
    List.isEmpty_eq_false_iff.2 (digits_ne_nil _)
  have hlength : (digits b.toNat).length ≤ 3 := length_digits_le (by omega)
  have hleading : ¬ ((digits b.toNat).head? = some '0' ∧ 1 < (digits b.toNat).length) := by
    rintro ⟨hzero, hlong⟩
    rw [eq_zero_of_head?_digits hzero, digits, if_pos (by decide)] at hlong
    exact absurd hlong (by decide)
  rw [readOctet, takeWhile_digits _ hrest, dropWhile_digits _ hrest]
  simp only [foldl_digits, hnonempty, Bool.false_eq_true, false_or]
  have hplain : ¬ (3 < (digits b.toNat).length ∨
      ((digits b.toNat).head? = some '0' ∧ 1 < (digits b.toNat).length) ∨ 255 < b.toNat) := by
    rintro (hlong | hzero | hlarge)
    · omega
    · exact hleading hzero
    · omega
  rw [if_neg hplain, UInt8.ofNat_toNat]

theorem readShort_writeShort (a b c d : UInt8) :
    readShort (writeShort [a, b, c, d]) = some ([a, b, c, d], []) := by
  have hwritten : writeShort [a, b, c, d] = digits a.toNat ++ '.' :: (digits b.toNat ++
      '.' :: (digits c.toNat ++ '.' :: (digits d.toNat ++ []))) := by
    simp [writeShort, List.intercalate]
  rw [hwritten, readShort]
  simp only [readOctet_digits _ (rfl : ('.' :: _).head?.any Char.isDigit = false),
    readOctet_digits _ (rfl : ([] : List Char).head?.any Char.isDigit = false), bind,
    Option.bind]

/-- Only digits start a decimal number. -/
theorem readShort_of_no_digit {s : List Char} (h : s.head?.any Char.isDigit = false) :
    readShort s = none := by
  rw [readShort, readOctet, takeWhile_of_head? h]
  rfl

/-- Without a point there are no four decimal numbers. -/
theorem readShort_of_no_point {s : List Char} (h : '.' ∉ s) : readShort s = none := by
  rw [readShort]
  cases hoctet : readOctet s with
  | none => rfl
  | some p =>
    obtain ⟨a, rest⟩ := p
    have hrest : '.' ∉ rest := by
      rw [readOctet] at hoctet
      split at hoctet
      · cases hoctet
      · cases hoctet
        exact fun hmem => h ((List.dropWhile_sublist _).subset hmem)
    cases rest with
    | nil => rfl
    | cons c rest =>
      have hc : c ≠ '.' := fun hc => hrest (hc ▸ List.mem_cons_self)
      simp only [bind, Option.bind]
      split
      · rfl
      · rename_i heq
        split at heq
        · rename_i hpoint
          exact absurd (List.cons.inj hpoint).1 hc
        · cases heq

/-! ### Groups -/

theorem readGroup_eq (s : List Char) :
    readGroup s =
      let digits := (s.takeWhile Hex.isDigit).filterMap Hex.value?
      if digits.isEmpty ∨ 4 < digits.length then none
      else some (digits.foldl (fun n d => n * 16 + d) 0, s.drop digits.length) :=
  rfl

theorem readGroup_toDigits {g : ℕ} (hg : g < 65536) {rest : List Char}
    (hrest : rest.head?.any Hex.isDigit = false) :
    readGroup (Nat.toDigits 16 g ++ rest) = some (g, rest) := by
  have htake : (Nat.toDigits 16 g ++ rest).takeWhile Hex.isDigit = Nat.toDigits 16 g :=
    takeWhile_append_of_stop (fun _ => Hex.isDigit_of_mem_toDigits) hrest
  obtain ⟨hlength, hfold⟩ := Hex.filterMap_toDigits g
  have hnonempty : 0 < (Nat.toDigits 16 g).length := Nat.length_toDigits_pos
  have hshort : (Nat.toDigits 16 g).length ≤ 4 :=
    (Nat.length_toDigits_le_iff (by decide) (by decide)).2 hg
  rw [readGroup_eq, htake]
  simp only [hlength, hfold, List.drop_left]
  refine if_neg (not_or.2 ⟨fun hempty => ?_, by omega⟩)
  rw [List.isEmpty_iff.1 hempty, List.length_nil] at hlength
  omega

theorem readGroup_of_no_digit {s : List Char} (h : s.head?.any Hex.isDigit = false) :
    readGroup s = none := by
  rw [readGroup_eq, takeWhile_of_head? h]
  rfl

/-- Where no hexadecimal digit stands, no group is read. -/
theorem readGroups_of_no_digit {limit : ℕ} {first : Bool} {s : List Char}
    (h : ∀ t, afterColon first s = some t → t.head?.any Hex.isDigit = false) :
    readGroups limit first s = ([], false, s) := by
  cases limit with
  | zero => rfl
  | succ limit =>
    have hnone : (afterColon first s).bind readShort = none ∧
        (afterColon first s).bind readGroup = none := by
      cases hcolon : afterColon first s with
      | none => exact ⟨rfl, rfl⟩
      | some t =>
        have hhex := h t hcolon
        have hdigit : t.head?.any Char.isDigit = false := by
          cases hhead : t.head? with
          | none => rfl
          | some c =>
            rw [hhead] at hhex
            cases hc : c.isDigit with
            | false => exact hc
            | true => exact absurd (Hex.isDigit_of_char_isDigit hc) (by simpa using hhex)
        exact ⟨readShort_of_no_digit hdigit, readGroup_of_no_digit hhex⟩
    rw [readGroups, hnone.1, hnone.2, ite_self]

/-- One group is read, at the start or after a colon. -/
theorem readGroups_group {limit g : ℕ} {first endsShort : Bool} {s further rest : List Char}
    {gs : List ℕ} (hg : g < 65536)
    (hcolon : afterColon first s = some (Nat.toDigits 16 g ++ further))
    (hshort : readShort (Nat.toDigits 16 g ++ further) = none)
    (hends : further.head?.any Hex.isDigit = false)
    (hfurther : readGroups limit false further = (gs, endsShort, rest)) :
    readGroups (limit + 1) first s = (g :: gs, endsShort, rest) := by
  rw [readGroups, hcolon, Option.bind_some, Option.bind_some, hshort, ite_self,
    readGroup_toDigits hg hends]
  simp only [hfurther]

theorem writeGroups_cons (g : ℕ) (gs : List ℕ) :
    writeGroups (g :: gs) =
      Nat.toDigits 16 g ++ gs.flatMap (fun g => ':' :: Nat.toDigits 16 g) := by
  induction gs generalizing g with
  | nil => simp [writeGroups]
  | cons next gs ih =>
    have hnext := ih next
    rw [writeGroups, List.map_cons] at hnext
    rw [writeGroups, List.map_cons, List.map_cons, List.intercalate_cons_cons, hnext,
      List.flatMap_cons, List.append_assoc]
    rfl

theorem point_not_mem_toDigits (g : ℕ) : '.' ∉ Nat.toDigits 16 g := by
  intro h
  exact absurd (Hex.isDigit_of_mem_toDigits h) (by decide)

theorem point_not_mem_further (gs : List ℕ) :
    '.' ∉ gs.flatMap (fun g => ':' :: Nat.toDigits 16 g) := by
  intro h
  obtain ⟨g, -, hg⟩ := List.mem_flatMap.1 h
  rcases List.mem_cons.1 hg with hcolon | hg
  · exact absurd hcolon (by decide)
  · exact point_not_mem_toDigits g hg

theorem point_not_mem_writeGroups (gs : List ℕ) : '.' ∉ writeGroups gs := by
  cases gs with
  | nil => exact List.not_mem_nil
  | cons g gs =>
    rw [writeGroups_cons, List.mem_append]
    exact not_or.2 ⟨point_not_mem_toDigits g, point_not_mem_further gs⟩

/-- What may follow written groups: nothing or a double colon. -/
def EndsGroups (rest : List Char) : Prop :=
  rest = [] ∨ ∃ t, rest = ':' :: ':' :: t

section Groups

variable {gs : List ℕ} {limit : ℕ} {rest : List Char}

theorem EndsGroups.readGroups_eq (h : EndsGroups rest) (limit : ℕ) (first : Bool) :
    readGroups limit first rest = ([], false, rest) := by
  refine readGroups_of_no_digit fun t ht => ?_
  rcases h with rfl | ⟨s, rfl⟩ <;> cases first <;> cases ht <;> rfl

theorem EndsGroups.head?_further (h : EndsGroups rest) (gs : List ℕ) :
    (gs.flatMap (fun g => ':' :: Nat.toDigits 16 g) ++ rest).head?.any Hex.isDigit = false := by
  cases gs with
  | nil => rcases h with rfl | ⟨t, rfl⟩ <;> rfl
  | cons g gs => rfl

theorem readGroups_further (hgs : ∀ g ∈ gs, g < 65536) (hlimit : gs.length ≤ limit)
    (hrest : EndsGroups rest) (hpoint : '.' ∉ rest) :
    readGroups limit false (gs.flatMap (fun g => ':' :: Nat.toDigits 16 g) ++ rest) =
      (gs, false, rest) := by
  induction gs generalizing limit with
  | nil => exact hrest.readGroups_eq limit false
  | cons g gs ih =>
    obtain ⟨hg, hgs⟩ := List.forall_mem_cons.1 hgs
    obtain ⟨limit, rfl⟩ := Nat.exists_eq_add_one_of_ne_zero (Nat.ne_zero_of_lt hlimit)
    have hfurther := ih hgs (Nat.le_of_succ_le_succ hlimit)
    rw [List.flatMap_cons, List.append_assoc]
    refine readGroups_group hg rfl (readShort_of_no_point ?_) (hrest.head?_further gs) hfurther
    simp only [List.mem_append, not_or]
    exact ⟨point_not_mem_toDigits g, point_not_mem_further gs, hpoint⟩

/-- Groups read back, up to a double colon or the end. -/
theorem readGroups_writeGroups (limit : ℕ) (hgs : ∀ g ∈ gs, g < 65536) (hlimit : gs.length ≤ limit)
    (hrest : EndsGroups rest) (hpoint : '.' ∉ rest) :
    readGroups limit true (writeGroups gs ++ rest) = (gs, false, rest) := by
  cases gs with
  | nil => exact hrest.readGroups_eq limit true
  | cons g gs =>
    obtain ⟨hg, hgs⟩ := List.forall_mem_cons.1 hgs
    obtain ⟨limit, rfl⟩ := Nat.exists_eq_add_one_of_ne_zero (Nat.ne_zero_of_lt hlimit)
    have hfurther := readGroups_further hgs (Nat.le_of_succ_le_succ hlimit) hrest hpoint
    rw [writeGroups_cons, List.append_assoc]
    refine readGroups_group hg rfl (readShort_of_no_point ?_) (hrest.head?_further gs) hfurther
    simp only [List.mem_append, not_or]
    exact ⟨point_not_mem_toDigits g, point_not_mem_further gs, hpoint⟩

end Groups

/-! ### The run that is left out -/

/-- The longest run of zeros is a run of zeros. -/
theorem longestZeros_spec (groups : List ℕ) :
    ∃ front back, groups = front ++ (List.replicate (longestZeros groups).2 0 ++ back) ∧
      front.length = (longestZeros groups).1 := by
  induction groups with
  | nil => exact ⟨[], [], rfl, rfl⟩
  | cons g rest ih =>
    rw [longestZeros]
    split
    · refine ⟨[], (g :: rest).dropWhile (· == 0), ?_, rfl⟩
      have hzeros : (g :: rest).takeWhile (· == 0) =
          List.replicate (leadingZeros (g :: rest)) 0 :=
        List.eq_replicate_of_mem fun n hn => by simpa using List.mem_takeWhile_imp hn
      rw [← hzeros, List.nil_append, List.takeWhile_append_dropWhile]
    · obtain ⟨front, back, hrest, hfront⟩ := ih
      refine ⟨g :: front, back, ?_, ?_⟩
      · rw [List.cons_append, ← hrest]
      · rw [List.length_cons, hfront]

/-! ### Addresses -/

theorem readLong_writeGroups {groups : List ℕ} (hlength : groups.length = 8)
    (hgroups : ∀ g ∈ groups, g < 65536) : readLong (writeGroups groups) = some (groups, []) := by
  have hread := readGroups_writeGroups 8 hgroups (by omega) (.inl rfl) List.not_mem_nil
  rw [List.append_nil] at hread
  rw [readLong, hread]
  exact if_pos hlength

/-- What a double colon leaves out is as many zeros as groups are missing. -/
theorem readLong_of_gap {front back : List ℕ} {endsShort : Bool} {s t rest : List Char}
    (hfront : readGroups 8 true s = (front, false, ':' :: ':' :: t)) (hlength : front.length ≠ 8)
    (hback : readGroups (7 - front.length) true t = (back, endsShort, rest)) :
    readLong s =
      some (front ++ List.replicate (8 - front.length - back.length) 0 ++ back, rest) := by
  rw [readLong, hfront]
  simp only
  rw [if_neg hlength, if_neg Bool.false_ne_true, hback]

/-- A run of at least two zeros that is left out is put back. -/
theorem readLong_leftOut {front back : List ℕ} {count : ℕ}
    (hlength : front.length + count + back.length = 8) (hcount : 1 < count)
    (hfront : ∀ g ∈ front, g < 65536) (hback : ∀ g ∈ back, g < 65536) :
    readLong (writeGroups front ++ ':' :: ':' :: writeGroups back) =
      some (front ++ (List.replicate count 0 ++ back), []) := by
  have hpoint : '.' ∉ ':' :: ':' :: writeGroups back := by
    simp [point_not_mem_writeGroups back]
  have hreadFront := readGroups_writeGroups 8 hfront (by omega) (.inr ⟨_, rfl⟩) hpoint
  have hreadBack := readGroups_writeGroups (7 - front.length) hback (by omega) (.inl rfl)
    List.not_mem_nil
  rw [List.append_nil] at hreadBack
  have hmissing : 8 - front.length - back.length = count := by omega
  rw [readLong_of_gap hreadFront (by omega) hreadBack, hmissing, List.append_assoc]

/-- The last two of eight groups may be written as four bytes. -/
theorem readLong_mapped (a b c d : UInt8) :
    readLong ("::ffff:".toList ++ writeShort [a, b, c, d]) =
      some ([0, 0, 0, 0, 0, 0xFFFF] ++ groupsOf [a, b, c, d], []) := by
  have hshort : readGroups 6 false (':' :: writeShort [a, b, c, d]) =
      (groupsOf [a, b, c, d], true, []) := by
    rw [readGroups, afterColon, if_neg Bool.false_ne_true]
    simp only [Option.bind_some, readShort_writeShort]
    rfl
  have hback : readGroups 7 true ("ffff:".toList ++ writeShort [a, b, c, d]) =
      (0xFFFF :: groupsOf [a, b, c, d], true, []) :=
    readGroups_group (g := 0xFFFF) (by decide) rfl (readShort_of_no_digit rfl) rfl hshort
  have hfront : readGroups 8 true ("::ffff:".toList ++ writeShort [a, b, c, d]) =
      ([], false, "::ffff:".toList ++ writeShort [a, b, c, d]) :=
    readGroups_of_no_digit fun t ht => by cases ht; rfl
  exact readLong_of_gap hfront (by decide) hback

namespace Address

theorem ofBytes?_bytes (a : Address) : ofBytes? a.bytes = some a :=
  dif_pos a.size_eq

/-- A text of groups, unless it is one of four bytes. -/
theorem read?_of_readLong {a : Address} {s : List Char} (hshort : readShort s = none)
    (hlong : readLong s = some (a.groups, [])) (hsize : a.bytes.length = 16) :
    read? s = some a := by
  rw [read?, hshort, hlong]
  simp only [List.isEmpty_nil, if_true]
  rw [groups, bytesOf_groupsOf (by omega), ofBytes?_bytes]

/-- Every address reads back. -/
theorem read?_write (a : Address) : read? a.write = some a := by
  rw [write]
  cases hshort : a.isShort with
  | true =>
    have hsize : a.bytes.length = 4 := by simpa [isShort] using hshort
    match hbytes : a.bytes, hsize with
    | [b₁, b₂, b₃, b₄], _ =>
      rw [if_pos rfl, read?, readShort_writeShort, ← hbytes]
      exact ofBytes?_bytes a
  | false =>
    have hsize : a.bytes.length = 16 := by
      have hnot : a.bytes.length ≠ 4 := by simpa [isShort] using hshort
      exact a.size_eq.resolve_left hnot
    have hlength : a.groups.length = 8 := by rw [groups, length_groupsOf, hsize]
    have hgroups : ∀ g ∈ a.groups, g < 65536 := fun _ => lt_of_mem_groupsOf
    rw [if_neg Bool.false_ne_true]
    dsimp only
    split
    case isTrue hmapped =>
      have hdrop : a.groups.drop 6 = groupsOf (a.bytes.drop 12) := drop_groupsOf 6 a.bytes
      have hlast : (a.bytes.drop 12).length = 4 := by rw [List.length_drop, hsize]
      match hbytes : a.bytes.drop 12, hlast with
      | [b₁, b₂, b₃, b₄], _ =>
        refine read?_of_readLong (readShort_of_no_digit rfl) ?_ hsize
        rw [readLong_mapped, ← hbytes, ← hdrop, ← hmapped, List.take_append_drop]
    case isFalse =>
      obtain ⟨front, back, hsplit, hfront⟩ := longestZeros_spec a.groups
      cases hlongest : longestZeros a.groups with
      | mk start count =>
        rw [hlongest] at hsplit hfront
        dsimp only at hsplit hfront ⊢
        split
        case isTrue hcount =>
          have htake : a.groups.take start = front := by rw [hsplit, List.take_left' hfront]
          have hdrop : a.groups.drop (start + count) = back := by
            rw [hsplit, ← List.append_assoc, List.drop_left']
            rw [List.length_append, List.length_replicate, hfront]
          have hgap : '.' ∉ writeGroups front ++ ':' :: ':' :: writeGroups back := by
            simp [point_not_mem_writeGroups]
          rw [hsplit] at hlength hgroups
          simp only [List.length_append, List.length_replicate] at hlength
          simp only [List.forall_mem_append] at hgroups
          rw [htake, hdrop]
          refine read?_of_readLong (readShort_of_no_point hgap) ?_ hsize
          rw [hsplit, readLong_leftOut (by omega) hcount hgroups.1 hgroups.2.2]
        case isFalse =>
          exact read?_of_readLong (readShort_of_no_point (point_not_mem_writeGroups _))
            (readLong_writeGroups hlength hgroups) hsize

end Address

end RingScan.Inet
