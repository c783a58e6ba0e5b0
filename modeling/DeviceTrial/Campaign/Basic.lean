import DeviceTrial.Campaign.Device
import DeviceTrial.Envelope.Writer
import DeviceTrial.Settings.Basic
import DeviceTrial.Snapshot.Notation

namespace DeviceTrial

structure TestCase where
  path : CommandPath
  payload : List UInt8

def TestCase.ofElement (path : CommandPath) (e : Element) : TestCase := ⟨path, e.encode⟩

structure Archive where
  time : String
  /-- No directory can be made, since a file stands in its place. -/
  isBlocked : Bool
  dumps : List Snapshot

structure Campaign where
  settings : Settings
  bench : Bench
  archive : Option Archive
  /-- The rounds that were finished, one a line. -/
  history : List String

structure RoundReport where
  round : Nat
  outcome : RoundOutcome
  response : Option Status
  verdict : Verdict

inductive CampaignFault where
  | round (fault : RoundFault)
  | unreachable (round : Nat)

def CampaignFault.message : CampaignFault → String
  | round fault => fault.message
  | unreachable id => "Device stopped responding during round " ++ Numeral.decimal id

structure Summary where
  rounds : Nat := 0
  /-- Rounds that waited for a report in vain. -/
  silentRounds : Nat := 0
  unexpectedResponses : Nat := 0
  unreachableAt : Option Nat := none
  observations : Nat := 0

def Summary.describe (s : Summary) : String :=
  let round := match s.unreachableAt with
    | some id => "Some(" ++ Numeral.decimal id ++ ")"
    | none => "None"
  "RunSummary \x7b rounds: " ++ Numeral.decimal s.rounds ++ ", subscription_timeouts: " ++
    Numeral.decimal s.silentRounds ++ ", unexpected_responses: " ++
    Numeral.decimal s.unexpectedResponses ++
    ", unreachable_at: " ++ round ++ ", observations: " ++ Numeral.decimal s.observations ++ " \x7d"

def TestCase.historyLine (case : TestCase) (response : Option Status) : String :=
  case.path.describe ++ " payload=" ++ Hex.encode case.payload ++ " -> " ++
    Observation.answer response

namespace Campaign

variable {σ : Type}

def new (settings : Settings) (archive : Option Archive) : Campaign :=
  ⟨settings, .new settings.patience.toNat settings.limit.toNat, archive, []⟩

def receive (b : Bench) (case : TestCase) : Except LinkFault Reply → Told Bench
  | .ok reply => b.receive .firstOfStruct (.response case.path reply.status reply.response)
  | .error fault => do
    tell .error "transport failed" [("error", fault.message)]
    let exchange := match case.path.kind with
      | .invoke => .invoke
      | .write => .write
    b.receive .firstOfStruct (.failure exchange fault.code)

/-- Prepares the round, asks the device and ends the round. Gives the outcome and what the slot of
the round holds. -/
def drive (d : Device σ) (b : Bench) (state : σ) (settings : Settings) (round : Nat)
    (case : TestCase) :
    Told (Except RoundFault (RoundOutcome × Option Status) × Bench × σ) := do
  let needs := settings.awaitReports && b.rounds.expects case.path
  match b.rounds.update (.flags needs needs) with
  | .error fault => return (.error fault, b, state)
  | .ok (_, rounds) =>
    match rounds.update (.target settings.destination case.path (.own round)) with
    | .error fault => return (.error fault, { b with rounds }, state)
    | .ok (_, rounds) =>
      let (reaction, state, b) ←
        d.respond state { b with rounds } settings.destination case.path case.payload
      let b ← receive b case (← reaction.received settings.destination case.path)
      match b.rounds.finalize [] with
      | .error fault => return (.error fault, b, state)
      | .ok ended =>
        let (outcome, rounds) ← ended
        return (.ok (outcome, rounds.slots.get? (.own round)), { b with rounds }, state)

/-- Releases a round. If it is refused, the round is released by force and the fault is told. -/
def release (rounds : Rounds) : Told (Option RoundFault × Rounds) :=
  match rounds.close false with
  | .ok closed => return (none, ← closed)
  | .error fault => match rounds.close true with
    | .ok closed => return (some fault, ← closed)
    | .error fault => return (some fault, rounds)

def abandon (rounds : Rounds) : Told Rounds :=
  match rounds.close true with
  | .ok closed => closed
  | .error _ => return rounds

/-- Takes down a round that was played to its end. -/
def conclude (c : Campaign) (round : Nat) (case : TestCase) (outcome : RoundOutcome)
    (response : Option Status) :
    Told (Except CampaignFault RoundReport × Campaign) := do
  let c := { c with history := c.history ++ [case.historyLine response] }
  let verdict := c.bench.judge.current
  tell .info "round finished"
    [("outcome", outcome.describe), ("answer", Observation.answer response),
      ("verdict", verdict.describe)]
  if verdict = .unreachable then
    tell .error "device unreachable" []
    return (.error (.unreachable round), c)
  else return (.ok ⟨round, outcome, response, verdict⟩, c)

/-- Plays one case in a round of its own. A round that fails is released by force, so that the next
one can start. -/
def runCase (d : Device σ) (c : Campaign) (state : σ) (case : TestCase) :
    Told (Except CampaignFault RoundReport × Campaign × σ) :=
  match c.bench.rounds.start .own with
  | .error fault => return (.error (.round fault), c, state)
  | .ok started => do
    let (round, rounds) ← started
    let (driven, bench, state) ← drive d { c.bench with rounds } state c.settings round case
    match driven with
    | .error fault =>
      let rounds ← abandon bench.rounds
      return (.error (.round fault), { c with bench := { bench with rounds } }, state)
    | .ok (outcome, response) =>
      let (refused, rounds) ← release bench.rounds
      let c := { c with bench := { bench with rounds } }
      match refused with
      | some fault => return (.error (.round fault), c, state)
      | none =>
        let (report, c) ← c.conclude round case outcome response
        return (report, c, state)

/-- Writes a snapshot, if there is a place for it, and tells whether it did. -/
def dump (c : Campaign) : Told (Except SnapshotFault Bool × Campaign) :=
  match c.archive with
  | none => return (.ok false, c)
  | some archive =>
    if archive.isBlocked then return (.error .blocked, c)
    else do
      tell .info "snapshot written" []
      let snapshot := c.bench.store.dump archive.time c.history
      let archive := { archive with dumps := archive.dumps ++ [snapshot] }
      return (.ok true, { c with archive := some archive })

def Summary.count (s : Summary) (report : RoundReport) : Summary :=
  { s with
    silentRounds := s.silentRounds + if report.outcome = .silent then 1 else 0
    unexpectedResponses := s.unexpectedResponses + if report.verdict = .unexpected then 1 else 0 }

/-- Plays cases until one fails. An unreachable device is dumped and ends the run in good order. -/
def playAll (d : Device σ) (c : Campaign) (state : σ) (summary : Summary) :
    List TestCase → Told (Except CampaignFault Summary × Campaign × σ)
  | [] => return (.ok summary, c, state)
  | case :: rest => do
    let summary := { summary with rounds := summary.rounds + 1 }
    let (result, c, state) ← c.runCase d state case
    match result with
    | .ok report => playAll d c state (Summary.count summary report) rest
    | .error (.unreachable round) =>
      let (dumped, c) ← c.dump
      match dumped with
      | .ok _ => pure ()
      | .error fault =>
        tell .warn "could not dump state of unreachable device" [("error", fault.message)]
      return (.ok { summary with unreachableAt := some round }, c, state)
    | .error fault => return (.error fault, c, state)

/-- Plays cases in order, as many as the settings allow. -/
def run (d : Device σ) (c : Campaign) (state : σ) (cases : List TestCase) :
    Told (Except CampaignFault Summary × Campaign × σ) := do
  let (result, c, state) ← c.playAll d state {} (cases.take c.settings.iterations.toNat)
  match result with
  | .error fault => return (.error fault, c, state)
  | .ok summary =>
    let summary := { summary with observations := c.bench.rounds.log.records.length }
    tell .info "run finished" [("summary", summary.describe)]
    return (.ok summary, c, state)

end Campaign

end DeviceTrial
