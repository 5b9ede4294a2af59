import RingScan.Proofs.Scan.Ledger

/-!
# Calls in any order

A scan may be started and asked for the next row in any order, and again and again, whatever it has
answered before.  What every call keeps, a run of calls keeps.

## Main definitions

* `Scan.Call`, `Scan.Answer`: the calls of a scan and what they answer.
* `Scan.follow`: the answers to calls that follow each other.

## Main statements

* `Scan.follow_keeps`: what every call keeps, a run of calls keeps.
-/

namespace RingScan.Scan

/-- A call of a scan, which follows a limited number of continuations. -/
inductive Call where
  /-- Starts the scan. -/
  | start (limit : ℕ)
  /-- Takes the next row. -/
  | next (limit : ℕ)
  deriving DecidableEq, Repr

/-- What a call answers. -/
inductive Answer where
  /-- To a start. -/
  | started (result : Except Failure Unit)
  /-- To a request for the next row. -/
  | taken (result : Except Failure (Option Record))

/-- The records that an answer hands out. -/
def Answer.records : Answer → List Record
  | started _ => []
  | taken result => handedOut result

variable {σ : Type} (session : Session σ)

/-- Makes a call. -/
def call (scan : Scan) : Call → σ → Tally → Option (Outcome σ Answer)
  | .start limit, world, tally =>
    (scan.start session limit world tally).map fun outcome =>
      { outcome with answer := .started outcome.answer }
  | .next limit, world, tally =>
    (scan.next session limit world tally).map fun outcome =>
      { outcome with answer := .taken outcome.answer }

/-- Makes calls one after the other. -/
def follow : List Call → Scan → σ → Tally → Option (Outcome σ (List Answer))
  | [], scan, world, tally => some ⟨[], scan, world, tally⟩
  | call :: calls, scan, world, tally =>
    (scan.call session call world tally).bind fun first =>
      (follow calls first.scan first.world first.tally).map fun rest =>
        { rest with answer := first.answer :: rest.answer }

variable {session}

theorem follow_cons {call : Call} {calls : List Call} {scan : Scan} {world : σ} {tally : Tally}
    {outcome : Outcome σ (List Answer)}
    (h : follow session (call :: calls) scan world tally = some outcome) :
    ∃ first rest, scan.call session call world tally = some first ∧
      follow session calls first.scan first.world first.tally = some rest ∧
      outcome = { rest with answer := first.answer :: rest.answer } := by
  obtain ⟨first, hfirst, hrest⟩ := Option.bind_eq_some_iff.1 h
  obtain ⟨rest, hfollow, rfl⟩ := Option.map_eq_some_iff.1 hrest
  exact ⟨first, rest, hfirst, hfollow, rfl⟩

/-- What every call keeps of the answers so far, the scan and the world, a run of calls keeps. -/
theorem follow_keeps {motive : List Answer → Scan → σ → Prop}
    (hcall : ∀ {told scan world tally call outcome}, motive told scan world →
      scan.call session call world tally = some outcome →
      motive (told ++ [outcome.answer]) outcome.scan outcome.world)
    {calls : List Call} (told : List Answer) {scan : Scan} {world : σ} {tally : Tally}
    {outcome : Outcome σ (List Answer)} (hbegin : motive told scan world)
    (h : follow session calls scan world tally = some outcome) :
    motive (told ++ outcome.answer) outcome.scan outcome.world := by
  induction calls generalizing told scan world tally outcome with
  | nil =>
    cases h
    rwa [List.append_nil]
  | cons call calls ih =>
    obtain ⟨first, rest, hfirst, hrest, rfl⟩ := follow_cons h
    have hkept := ih (told ++ [first.answer]) (hcall hbegin hfirst) hrest
    rwa [List.append_assoc] at hkept

end RingScan.Scan
