import DeviceTrial.Log
import DeviceTrial.Observation
import DeviceTrial.Round.Life

namespace DeviceTrial

inductive RoundFault where
  | noRound
  | alreadyLive (id : Nat)
  | terminated (id : Nat)
  | notTerminated (id : Nat) (status : RoundStatus)
  deriving DecidableEq, Repr

def RoundFault.message : RoundFault → String
  | noRound => "No round is live"
  | alreadyLive id => "Round " ++ Numeral.decimal id ++ " is still live and must be closed first"
  | terminated id => "Round " ++ Numeral.decimal id ++ " is already terminated"
  | notTerminated id status =>
    "Round " ++ Numeral.decimal id ++ " cannot be closed in status " ++ status.describe

inductive RoundOutcome where
  /-- The last status before the end. -/
  | completed (status : RoundStatus)
  /-- A report was waited for in vain. -/
  | silent
  deriving DecidableEq, Repr

def RoundOutcome.describe : RoundOutcome → String
  | completed status => "Completed(" ++ status.describe ++ ")"
  | silent => "SubscriptionTimeout"

/-- At most one round is live. The next id, the counters of the paths and the log outlive it. -/
structure Rounds where
  live : Option Round
  nextId : Nat
  /-- How often a path may fail to bring a report before none is waited for any more. -/
  limit : Nat
  /-- How often each path has failed since it last brought a report. -/
  silences : SortedMap CommandPath Nat
  log : ObservationLog
  slots : SortedMap Slot Status
  waiting : SortedSet Signal

namespace Rounds

def new (limit : Nat) : Rounds := ⟨none, 0, limit, .empty, .empty, .empty, .empty⟩

def defaultLimit : Nat := 3

def silencesOf (s : Rounds) (p : CommandPath) : Nat := (s.silences.get? p).getD 0

def expects (s : Rounds) (p : CommandPath) : Bool := decide (s.silencesOf p < s.limit)

def isWaiting (s : Rounds) (signal : Signal) : Bool := s.waiting.contains signal

def setWaiting (s : Rounds) (signal : Signal) (waiting : Bool) : Rounds :=
  { s with waiting := if waiting then s.waiting.insert signal () else s.waiting.erase signal }

def setSlot (s : Rounds) (slot : Slot) (status : Status) : Rounds :=
  { s with slots := s.slots.insert slot status }

def round (s : Rounds) : Except RoundFault Round :=
  match s.live with
  | some r => .ok r
  | none => .error .noRound

/-- The live round, unless it has been terminated. -/
def active (s : Rounds) : Except RoundFault Round := do
  let r ← s.round
  if r.status = .terminated then throw (.terminated r.id) else return r

def start (s : Rounds) (signal : Signal) : Except RoundFault (Told (Nat × Rounds)) :=
  match s.live with
  | some r => .error (.alreadyLive r.id)
  | none => .ok do
    tell .debug "round initialized" [("round", Numeral.decimal s.nextId)]
    return (s.nextId, { s with live := some (.new s.nextId signal), nextId := s.nextId + 1 })

/-- The cells that an update of a round writes besides the round. -/
def effects (s : Rounds) (r : Round) : RoundUpdate → Rounds
  | .response status => match r.slot with
    | some slot => s.setSlot slot status
    | none => s
  | .flags waiting _ => s.setWaiting r.signal waiting
  | _ => s

def update (s : Rounds) (u : RoundUpdate) : Except RoundFault (RoundStatus × Rounds) := do
  let r ← s.active
  let after := r.update u
  return (after.status, { s.effects r u with live := some after })

/-- Applies updates one after the other. Each gets its own answer. -/
def deliver (s : Rounds) : List RoundUpdate → List (Except RoundFault RoundStatus) × Rounds
  | [] => ([], s)
  | u :: us =>
    match s.update u with
    | .ok (status, s) =>
      let (answers, s) := deliver s us
      (.ok status :: answers, s)
    | .error fault =>
      let (answers, s) := deliver s us
      (.error fault :: answers, s)

def waits (s : Rounds) (r : Round) : Bool := r.needsReport && r.path.all s.expects

/-- Counts for a path that a report was waited for in vain, or forgets that it ever was. -/
def countSilence (s : Rounds) (p : CommandPath) (silent : Bool) : Rounds :=
  { s with
    silences := if silent then s.silences.insert p (s.silencesOf p + 1) else s.silences.erase p }

/-- What a round showed, if it had a path. The slot tells the answer before the round's own note
does. -/
def observation (s : Rounds) (r : Round) : Option Observation :=
  r.path.map fun path => ⟨r.id, path, (r.slot.bind s.slots.get?).or r.response, r.changed⟩

def observe (s : Rounds) : Option Observation → Told Rounds
  | none => return s
  | some o => do
    let log := s.log.record o
    if log.isNew then tell .info "new observation" [("observation", o.describe)]
    return { s with log }

/-- Ends a round, of which is known whether a report was waited for in vain. -/
def terminate (s : Rounds) (r : Round) (silent : Bool) : Told (RoundOutcome × Rounds) := do
  let s := { s.setWaiting r.signal false with live := some { r with status := .terminated } }
  if silent then
    tell .warn "subscription report did not arrive in time" [("round", Numeral.decimal r.id)]
  tell .debug "round finalized" [("round", Numeral.decimal r.id), ("status", r.status.describe)]
  let s ← s.observe (s.observation r)
  return (if silent then .silent else .completed r.status, s)

/-- Ends the live round. If it waits, the arrivals are delivered first. -/
def finalize (s : Rounds) (arrivals : List RoundUpdate) :
    Except RoundFault (Told (RoundOutcome × Rounds)) := do
  let r ← s.active
  if s.waits r then
    let s := (s.deliver arrivals).2
    -- no arrival closes the round, so it is still the live one
    let after := s.live.getD r
    let silent := !after.isPast
    -- the path that counts is the one that the round had when its end was called for
    let s := match r.path with
      | some p => s.countSilence p silent
      | none => s
    return s.terminate after silent
  else return s.terminate r false

/-- Releases the live round. One that is not terminated, or is not there, is refused unless all is
to be forced. -/
def close (s : Rounds) (force : Bool) : Except RoundFault (Told Rounds) :=
  match s.live with
  | none => if force then .ok (pure s) else .error .noRound
  | some r =>
    if r.status = .terminated ∨ force then .ok do
      tell .debug "round closed" [("round", Numeral.decimal r.id)]
      return { s with live := none }
    else .error (.notTerminated r.id r.status)

def drainObservations (s : Rounds) : List Observation × Rounds :=
  let (records, log) := s.log.drain
  (records, { s with log })

end Rounds

end DeviceTrial
