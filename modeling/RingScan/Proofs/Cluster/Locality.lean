import Mathlib.Data.List.Forall2
import RingScan.Cluster.Endpoint
import RingScan.Proofs.Inet.Case
import RingScan.Proofs.Text.Hex
import RingScan.Proofs.Text.Numeral

/-!
# Local endpoints

An endpoint may be written in several ways: with a port or without, with brackets around an address
of sixteen bytes or without, with blanks around it, and in capital or small letters.  All of them
have the same host up to the case of letters, and whether an endpoint is local depends on nothing
else.  The colons of an address of sixteen bytes are not taken for the one before a port, because
there are at least two of them.

## Main definitions

* `Endpoint.IsPlain`, `Endpoint.IsLong`: the two kinds of hosts.
* `Endpoint.Form`, `Endpoint.Writes`: the ways to write a host.

## Main statements

* `Endpoint.hostChars_of_form`: each form has the host that it was written for.
* `Endpoint.lowered_of_writes`: so has each way to write it, up to the case of letters.
* `Endpoint.isLocal_congr`: whether an endpoint is local depends on its host only.
* `Endpoint.isLocal_of_writes`: both together, and which hosts are local.
-/

namespace RingScan.Endpoint

/-! ### Ways to write a host -/

/-- A name or an address of four bytes: without colons and brackets, and without blanks at its
ends. -/
structure IsPlain (host : List Char) : Prop where
  /-- There is no colon. -/
  colon : ':' ∉ host
  /-- There is no opening bracket. -/
  opening : '[' ∉ host
  /-- There is no closing bracket. -/
  closing : ']' ∉ host
  /-- The first character is not blank. -/
  first : ∀ c, host.head? = some c → Text.isBlank c = false
  /-- The last character is not blank. -/
  last : ∀ c, host.getLast? = some c → Text.isBlank c = false

/-- An address of sixteen bytes: with at least two colons, and without brackets and blanks. -/
structure IsLong (host : List Char) : Prop where
  /-- There are two colons. -/
  colons : 2 ≤ host.count ':'
  /-- There is no opening bracket. -/
  opening : '[' ∉ host
  /-- There is no closing bracket. -/
  closing : ']' ∉ host
  /-- There is no blank. -/
  blank : ∀ c ∈ host, Text.isBlank c = false

/-- The forms of a host, with the digits of a port or without. -/
inductive Form (host : List Char) : List Char → Prop
  /-- A name or an address of four bytes by itself. -/
  | plain (h : IsPlain host) : Form host host
  /-- A name or an address of four bytes, and a port. -/
  | plainPort (h : IsPlain host) {port : ℕ} (hport : port ≤ 65535) :
      Form host (host ++ ':' :: Text.digits port)
  /-- An address of sixteen bytes by itself. -/
  | long (h : IsLong host) : Form host host
  /-- An address of sixteen bytes between brackets. -/
  | brackets (h : IsLong host) : Form host ('[' :: (host ++ [']']))
  /-- An address of sixteen bytes between brackets, and a port. -/
  | bracketsPort (h : IsLong host) {port : ℕ} (hport : port ≤ 65535) :
      Form host ('[' :: (host ++ ']' :: ':' :: Text.digits port))

/-- The endpoint is a form of the host, with any blanks around it and in any case of letters. -/
def Writes (host endpoint : String) : Prop :=
  ∃ form before cs after, Form host.toList form ∧ endpoint.toList = before ++ cs ++ after ∧
    before.all Text.isBlank = true ∧ after.all Text.isBlank = true ∧
    cs.map Char.toLower = form.map Char.toLower

variable {host form cs before after : List Char}

/-! ### Ports -/

theorem isPort_digits {port : ℕ} (h : port ≤ 65535) : isPort (Text.digits port) = true := by
  rw [isPort, Text.readNatural_digits h]
  rfl

theorem colon_not_mem_digits (n : ℕ) : ':' ∉ Text.digits n := fun h =>
  absurd (Text.isDigit_of_mem_digits h) (by decide)

/-- Without a colon there is no port. -/
theorem withoutPort_of_not_mem (h : ':' ∉ cs) : withoutPort cs = cs := by
  have hdrop : cs.reverse.dropWhile (· != ':') = [] := by
    rw [List.dropWhile_eq_nil_iff]
    exact fun c hc => bne_iff_ne.2 fun heq => h (heq ▸ List.mem_reverse.1 hc)
  rw [withoutPort, hdrop]

/-- What follows the last colon may be a port if there is no other colon. -/
theorem withoutPort_append (h : ':' ∉ after) :
    withoutPort (before ++ ':' :: after) =
      if ':' ∉ before ∧ isPort after = true then before else before ++ ':' :: after := by
  have hreverse : (before ++ ':' :: after).reverse = after.reverse ++ ':' :: before.reverse := by
    simp
  have hafter : ':' ∉ after.reverse := mt List.mem_reverse.1 h
  rw [withoutPort, hreverse, Text.dropWhile_bne_append hafter, Text.takeWhile_bne_append hafter]
  simp

theorem exists_last_colon (h : ':' ∈ cs) :
    ∃ before after, cs = before ++ ':' :: after ∧ ':' ∉ after := by
  obtain ⟨after, before, hcs, hafter⟩ := List.eq_append_cons_of_mem (List.mem_reverse.2 h)
  refine ⟨before.reverse, after.reverse, ?_, by simpa using hafter⟩
  rw [← List.reverse_reverse cs, hcs]
  simp

/-! ### Hosts of the forms -/

theorem hostChars_of_bracket {rest : List Char} (h : Text.trimChars cs = '[' :: rest) :
    hostChars cs = rest.takeWhile (· != ']') := by
  rw [hostChars, h]
  rfl

theorem hostChars_of_ne_bracket (h : ∀ rest, Text.trimChars cs ≠ '[' :: rest) :
    hostChars cs = withoutPort (Text.trimChars cs) := by
  rw [hostChars]
  split
  · rename_i rest hrest
    exact absurd hrest (h rest)
  · rfl

theorem hostChars_of_no_bracket (htrim : Text.trimChars cs = cs) (h : '[' ∉ cs) :
    hostChars cs = withoutPort cs := by
  have hne (rest : List Char) : Text.trimChars cs ≠ '[' :: rest := fun heq =>
    h (htrim ▸ heq ▸ List.mem_cons_self)
  rw [hostChars_of_ne_bracket hne, htrim]

/-- What has no blank in its second part does not end with one. -/
theorem isBlank_of_getLast?_append (front : List Char) {rest : List Char} {d : Char}
    (hrest : ∀ c ∈ d :: rest, Text.isBlank c = false) (c : Char)
    (hc : (front ++ d :: rest).getLast? = some c) : Text.isBlank c = false := by
  rw [List.getLast?_append_cons] at hc
  exact hrest c (List.mem_of_getLast? hc)

/-- A form does not start or end with a blank. -/
theorem trimChars_of_form (h : Form host form) : Text.trimChars form = form := by
  have hport (port : ℕ) : ∀ c ∈ ':' :: Text.digits port, Text.isBlank c = false :=
    List.forall_mem_cons.2 ⟨by decide, fun _ => Text.isBlank_of_mem_digits⟩
  have hclosing : Text.isBlank ']' = false := by decide
  have hopening {rest : List Char} (c : Char) (hc : ('[' :: rest).head? = some c) :
      Text.isBlank c = false := by
    obtain rfl : '[' = c := Option.some.inj hc
    decide
  cases h with
  | plain h => exact Text.trimChars_of_ends h.first h.last
  | @plainPort h port =>
    refine Text.trimChars_of_ends (fun c hc => ?_)
      (isBlank_of_getLast?_append host (hport port))
    cases host with
    | nil => exact hport port c (List.mem_of_head? hc)
    | cons d host => exact h.first c hc
  | long h => exact Text.trimChars_eq_self h.blank
  | brackets =>
    exact Text.trimChars_of_ends hopening
      (isBlank_of_getLast?_append ('[' :: host) (List.forall_mem_singleton.2 hclosing))
  | @bracketsPort h port =>
    exact Text.trimChars_of_ends hopening
      (isBlank_of_getLast?_append ('[' :: host)
        (List.forall_mem_cons.2 ⟨hclosing, hport port⟩))

/-- The host of a form is the one it was written for. -/
theorem hostChars_of_form (h : Form host form) : hostChars form = host := by
  have htrim := trimChars_of_form h
  cases h with
  | plain h => rw [hostChars_of_no_bracket htrim h.opening, withoutPort_of_not_mem h.colon]
  | @plainPort h port hport =>
    have hopening : '[' ∉ host ++ ':' :: Text.digits port := by
      rw [List.mem_append, List.mem_cons, not_or, not_or]
      exact ⟨h.opening, by decide, fun hmem =>
        absurd (Text.isDigit_of_mem_digits hmem) (by decide)⟩
    rw [hostChars_of_no_bracket htrim hopening, withoutPort_append (colon_not_mem_digits port),
      if_pos ⟨h.colon, isPort_digits hport⟩]
  | long h =>
    have hmem : ':' ∈ host := List.count_pos_iff.1 (Nat.lt_of_lt_of_le (by decide) h.colons)
    obtain ⟨before, after, rfl, hafter⟩ := exists_last_colon hmem
    have hbefore : ':' ∈ before := by
      have hcolons := h.colons
      rw [List.count_append, List.count_cons_self, List.count_eq_zero_of_not_mem hafter] at hcolons
      exact List.count_pos_iff.1 (by omega)
    rw [hostChars_of_no_bracket htrim h.opening, withoutPort_append hafter,
      if_neg fun hport => hport.1 hbefore]
  | brackets h => rw [hostChars_of_bracket htrim, Text.takeWhile_bne_append h.closing]
  | bracketsPort h hport => rw [hostChars_of_bracket htrim, Text.takeWhile_bne_append h.closing]

/-! ### Small letters -/

theorem isPort_map_toLower (cs : List Char) : isPort (cs.map Char.toLower) = isPort cs := by
  rw [isPort, Text.readNatural_map_toLower, isPort]

theorem withoutPort_map_toLower (cs : List Char) :
    withoutPort (cs.map Char.toLower) = (withoutPort cs).map Char.toLower := by
  have hcolon (cs : List Char) : ':' ∈ cs.map Char.toLower ↔ ':' ∈ cs :=
    Text.mem_map_toLower_iff (by decide)
  by_cases h : ':' ∈ cs
  · obtain ⟨before, after, rfl, hafter⟩ := exists_last_colon h
    have hlower : (before ++ ':' :: after).map Char.toLower =
        before.map Char.toLower ++ ':' :: after.map Char.toLower := List.map_append ..
    rw [hlower, withoutPort_append (mt (hcolon after).1 hafter), withoutPort_append hafter,
      isPort_map_toLower]
    by_cases hport : ':' ∉ before ∧ isPort after = true
    · rw [if_pos hport, if_pos ⟨mt (hcolon before).1 hport.1, hport.2⟩]
    · rw [if_neg hport, if_neg fun h => hport ⟨mt (hcolon before).2 h.1, h.2⟩, hlower]
  · rw [withoutPort_of_not_mem h, withoutPort_of_not_mem (mt (hcolon cs).1 h)]

theorem hostChars_map_toLower (cs : List Char) :
    hostChars (cs.map Char.toLower) = (hostChars cs).map Char.toLower := by
  have htrim : Text.trimChars (cs.map Char.toLower) = (Text.trimChars cs).map Char.toLower :=
    Text.trimChars_map_toLower cs
  by_cases h : ∃ rest, Text.trimChars cs = '[' :: rest
  · obtain ⟨rest, hrest⟩ := h
    have hclosing (c : Char) : (c.toLower != ']') = (c != ']') := by
      rw [Bool.eq_iff_iff, bne_iff_ne, bne_iff_ne, Ne, Text.toLower_eq_iff (by decide)]
    have hlower : Text.trimChars (cs.map Char.toLower) = '[' :: rest.map Char.toLower :=
      htrim.trans (congrArg (List.map Char.toLower) hrest)
    rw [hostChars_of_bracket hrest, hostChars_of_bracket hlower,
      Text.takeWhile_map_toLower hclosing]
  · have hne (rest : List Char) : Text.trimChars (cs.map Char.toLower) ≠ '[' :: rest := by
      intro hrest
      obtain ⟨c, rest, hcs, hc, -⟩ := List.map_eq_cons_iff.1 (htrim.symm.trans hrest)
      exact h ⟨rest, (Text.toLower_eq_iff (by decide)).1 hc ▸ hcs⟩
    rw [hostChars_of_ne_bracket (not_exists.1 h), hostChars_of_ne_bracket hne, htrim,
      withoutPort_map_toLower]

theorem hostChars_append (cs : List Char) (hbefore : before.all Text.isBlank = true)
    (hafter : after.all Text.isBlank = true) :
    hostChars (before ++ cs ++ after) = hostChars cs := by
  rw [hostChars, Text.trimChars_append cs hbefore hafter, hostChars]

/-- The host of an endpoint in small letters. -/
def lowered (endpoint : String) : List Char :=
  (hostChars endpoint.toList).map Char.toLower

/-- All ways to write a host have this host up to the case of letters. -/
theorem lowered_of_writes {host endpoint : String} (h : Writes host endpoint) :
    lowered endpoint = host.toList.map Char.toLower := by
  obtain ⟨form, before, cs, after, hform, hendpoint, hbefore, hafter, hcase⟩ := h
  rw [lowered, hendpoint, hostChars_append cs hbefore hafter, ← hostChars_map_toLower, hcase,
    hostChars_map_toLower, hostChars_of_form hform]

/-! ### Local endpoints -/

theorem toList_host (endpoint : String) :
    (Endpoint.host endpoint).toList = hostChars endpoint.toList :=
  String.toList_ofList

theorem sameIgnoringCase_host_iff {endpoint : String} {text : String} :
    Text.sameIgnoringCase (Endpoint.host endpoint) text = true ↔
      lowered endpoint = text.toList.map Char.toLower := by
  rw [Text.sameIgnoringCase, beq_iff_eq, toList_host, lowered]

theorem isLoopback_iff {host : String} :
    isLoopback host = true ↔
      ∃ address, Inet.Address.read? host.toList = some address ∧ address.isLoopback = true := by
  rw [isLoopback]
  cases Inet.Address.read? host.toList with
  | none => exact iff_of_false nofun nofun
  | some address => simp only [Option.some.injEq, exists_eq_left']

/-- Which endpoints are local. -/
theorem isLocal_iff {locals : List String} {endpoint : String} :
    isLocal locals endpoint = true ↔
      lowered endpoint = "localhost".toList.map Char.toLower ∨
      (∃ address, Inet.Address.read? (lowered endpoint) = some address ∧
        address.isLoopback = true) ∨
      lowered endpoint ∈ locals.map lowered := by
  have hlocals : (∃ other ∈ locals, lowered other = lowered endpoint) ↔
      lowered endpoint ∈ locals.map lowered := List.mem_map.symm
  rw [← hlocals, isLocal, Bool.or_eq_true, Bool.or_eq_true, sameIgnoringCase_host_iff,
    isLoopback_iff, List.any_eq_true, or_assoc, lowered, Inet.Address.read?_map_toLower,
    toList_host]
  simp only [sameIgnoringCase_host_iff, toList_host, lowered]

/-- Whether an endpoint is local depends on its host and on the hosts of the given local ones, up to
the case of letters. -/
theorem isLocal_congr {endpoint other : String} {locals others : List String}
    (h : lowered endpoint = lowered other)
    (hlocals : locals.map lowered = others.map lowered) :
    isLocal locals endpoint = isLocal others other := by
  rw [Bool.eq_iff_iff, isLocal_iff, isLocal_iff, h, hlocals]

/-- Two endpoints are written for one host. -/
def SameHost (endpoint other : String) : Prop :=
  ∃ host, Writes host endpoint ∧ Writes host other

theorem SameHost.lowered_eq {endpoint other : String} (h : SameHost endpoint other) :
    lowered endpoint = lowered other := by
  obtain ⟨host, hendpoint, hother⟩ := h
  rw [lowered_of_writes hendpoint, lowered_of_writes hother]

theorem map_lowered {locals others : List String}
    (h : List.Forall₂ (fun a b => a = b ∨ SameHost a b) locals others) :
    locals.map lowered = others.map lowered := by
  induction h with
  | nil => rfl
  | cons hends _ ih =>
    rw [List.map_cons, List.map_cons, ih]
    rcases hends with rfl | hsame
    · rfl
    · rw [hsame.lowered_eq]

theorem Form.self (h : Form host form) : Form host host := by
  cases h with
  | plain h => exact .plain h
  | plainPort h => exact .plain h
  | long h => exact .long h
  | brackets h => exact .long h
  | bracketsPort h => exact .long h

/-- A host is written by itself. -/
theorem Writes.self {host endpoint : String} (h : Writes host endpoint) : Writes host host := by
  obtain ⟨form, -, -, -, hform, -⟩ := h
  exact ⟨host.toList, [], host.toList, [], hform.self, by simp, rfl, rfl, rfl⟩

/-- **Whether an endpoint is local depends on its host only.**  It is the same for a host and for
every way to write it, and it stays the same if some of the given local endpoints are written in
another way.  The host is local if it is the name of the machine itself, an address of the machine
itself, or the host of a given local endpoint, up to the case of letters. -/
theorem isLocal_of_writes {host endpoint : String} {locals others : List String}
    (h : Writes host endpoint)
    (hlocals : List.Forall₂ (fun a b => a = b ∨ SameHost a b) locals others) :
    Text.sameIgnoringCase (Endpoint.host endpoint) host = true ∧
      isLocal others endpoint = isLocal locals host ∧
      (isLocal locals host = true ↔
        Text.sameIgnoringCase host "localhost" = true ∨
        (∃ address, Inet.Address.read? host.toList = some address ∧ address.isLoopback = true) ∨
        ∃ other ∈ locals, Text.sameIgnoringCase (Endpoint.host other) host = true) := by
  have hself : lowered host = host.toList.map Char.toLower := lowered_of_writes h.self
  refine ⟨?_, ?_, ?_⟩
  · rw [sameIgnoringCase_host_iff, lowered_of_writes h]
  · exact isLocal_congr ((lowered_of_writes h).trans hself.symm) (map_lowered hlocals).symm
  · rw [isLocal_iff, hself, Inet.Address.read?_map_toLower, List.mem_map, Text.sameIgnoringCase,
      beq_iff_eq]
    simp only [sameIgnoringCase_host_iff]

/-- An address of sixteen bytes between brackets, in capital letters and with a port, and a local
endpoint with the same host. -/
theorem isLocal_of_writes_bracketed :
    let host := "fe80::a1"
    let endpoint := "\t[FE80::A1]:9042 "
    Writes host endpoint ∧ SameHost host "[fe80::a1]" ∧
      isLocal ["10.0.0.1", "[fe80::a1]"] endpoint = isLocal ["10.0.0.1", host] host ∧
      isLocal ["10.0.0.1", host] host = true := by
  intro host endpoint
  have hvisible : host.toList.all (fun c => !Text.isBlank c) = true := by decide
  have hlong : IsLong host.toList :=
    ⟨by decide, by decide, by decide, fun c hc => by simpa using List.all_eq_true.1 hvisible c hc⟩
  have hport : Text.digits 9042 = ['9', '0', '4', '2'] := by
    rw [Text.digits, Text.digits, Text.digits, Text.digits]
    rfl
  have hwrites : Writes host endpoint := by
    refine ⟨_, ['\t'], "[FE80::A1]:9042".toList, [' '],
      .bracketsPort hlong (show 9042 ≤ 65535 by decide), by decide, by decide, by decide, ?_⟩
    rw [hport]
    decide
  have hbrackets : Writes host "[fe80::a1]" :=
    ⟨_, [], "[fe80::a1]".toList, [], .brackets hlong, by decide, rfl, rfl, by decide⟩
  have hsame : SameHost host "[fe80::a1]" := ⟨host, hwrites.self, hbrackets⟩
  have hlocals : List.Forall₂ (fun a b => a = b ∨ SameHost a b) ["10.0.0.1", host]
      ["10.0.0.1", "[fe80::a1]"] := .cons (.inl rfl) (.cons (.inr hsame) .nil)
  obtain ⟨-, hlocal, hiff⟩ := isLocal_of_writes hwrites hlocals
  exact ⟨hwrites, hsame, hlocal, hiff.2 (.inr (.inr ⟨host, by simp, by decide⟩))⟩

end RingScan.Endpoint
