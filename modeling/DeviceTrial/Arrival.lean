import DeviceTrial.Envelope.Locator
import DeviceTrial.Envelope.Outline
import DeviceTrial.Envelope.Reader
import DeviceTrial.Judge
import DeviceTrial.Round.Rounds
import DeviceTrial.Store.Tree

namespace DeviceTrial

structure Bench where
  store : Store
  judge : Judge
  rounds : Rounds

def Bench.new (patience limit : Nat) : Bench := ⟨.empty, .new patience, .new limit⟩

inductive Exchange where
  | invoke
  | write
  | read
  | subscribe
  | session
  deriving DecidableEq, Repr

def Exchange.describe : Exchange → String
  | invoke => "invoke"
  | write => "write"
  | read => "read"
  | subscribe => "subscribe"
  | session => "session"

inductive Arrival where
  | response (path : CommandPath) (status : Status) (raw : Option (List UInt8))
  | report (path : AttributePath) (status : Status) (raw : Option (List UInt8))
  | event (path : EventPath) (status : Status) (raw : Option (List UInt8))
  | failure (exchange : Exchange) (code : UInt32)

namespace Bench

/-- Gives an update to the live round, if there is one that takes it. -/
def updateRound (b : Bench) (u : RoundUpdate) : Told Bench :=
  match b.rounds.update u with
  | .ok (_, rounds) => return { b with rounds }
  | .error fault => do
    tell .debug "callback update found no live round" [("error", fault.message)]
    return b

def judgeAnswer (b : Bench) (path : CommandPath) (status : Status) : Told Bench := do
  let judge ← b.judge.consume path (.plain status)
  let key := ("path", path.describe)
  match judge.current with
  | .unexpected => tell .warn "unexpected response" [key, ("status", status.describe)]
  | .unreachable => tell .error "device unreachable" [key]
  | .timeout => tell .warn "device timed out" [key]
  | verdict =>
    tell .debug "response conforms"
      [key, ("status", status.describe), ("verdict", verdict.describe)]
  return { b with judge }

def tellResponse (path : CommandPath) : Option (List UInt8) → Told Unit
  | none | some [] => return ()
  | some raw =>
    match Element.decode raw with
    | .ok e => tell .debug "command response" [("path", path.describe), ("response", e.outline)]
    | .error fault =>
      tell .warn "undecodable command response"
        [("path", path.describe), ("error", fault.message), ("raw", Hex.encode raw)]

def receiveResponse (b : Bench) (path : CommandPath) (status : Status) (raw : Option (List UInt8)) :
    Told Bench := do
  tellResponse path raw
  let b ← b.judgeAnswer path status
  b.updateRound (.response status)

/-- The status that a code of the transport stands for. What is no named status is a failure. -/
def statusOfCode (code : UInt32) : Status :=
  if code.toNat < 256 ∧ (⟨UInt8.ofNat code.toNat⟩ : Status).isNamed then ⟨UInt8.ofNat code.toNat⟩
  else .failure

def receiveFailure (b : Bench) (exchange : Exchange) (code : UInt32) : Told Bench := do
  let status := statusOfCode code
  tell .error "exchange failed"
    [("kind", exchange.describe), ("code", Numeral.marked 1 code.toNat),
      ("status", status.describe)]
  let b ← match b.rounds.live.bind (·.path) with
    | some path => b.judgeAnswer path status
    | none => pure b
  b.updateRound (.response status)

/-- The statuses by which a device says that an attribute cannot be read. Of testing clusters more
are believed. -/
def closesGate (path : AttributePath) (status : Status) : Bool :=
  status = .unsupportedRead ||
    ((status = .unsupportedAccess || status = .failure) && isTestingCluster path.cluster)

/-- Closes an open gate. The attribute is created where it is absent. -/
def closeGate (b : Bench) (path : AttributePath) (status : Status) : Told Bench :=
  if !closesGate path status then return b
  else match b.store.addAttribute path with
    | .error fault => do
      tell .debug "cannot gate an attribute outside the known tree"
        [("path", path.describe), ("error", fault.message)]
      return b
    | .ok store =>
      -- a gate that is closed already must not be toggled open
      match store.isReadable path, store.toggle path with
      | .ok true, .ok (_, closed) => do
        tell .info "attribute read gate closed"
          [("path", path.describe), ("status", status.describe)]
        return { b with store := closed }
      | _, _ => return { b with store }

def storeReport (b : Bench) (path : AttributePath) (payload : Element) : Told Bench :=
  match b.store.write path payload with
  | .error fault => do
    tell .warn "attribute report not stored" [("path", path.describe), ("error", fault.message)]
    return b
  | .ok store => do
    tell .debug "attribute updated" [("path", path.describe), ("value", payload.outline)]
    { b with store }.updateRound (.changed (.ofList [path]))

def receiveReport (locator : Locator) (b : Bench) (path : AttributePath) (status : Status)
    (raw : Option (List UInt8)) :
    Told Bench :=
  if status ≠ .success then b.closeGate path status
  else match raw with
    | none => return b
    | some raw =>
      match Element.decode raw with
      | .error fault => do
        tell .warn "undecodable attribute report"
          [("path", path.describe), ("error", fault.message), ("raw", Hex.encode raw)]
        return b
      | .ok envelope =>
        match locator.locate envelope with
        | none => do
          tell .warn "attribute report carries no payload" [("path", path.describe)]
          return b
        | some payload => b.storeReport path payload

def tellEvent (path : EventPath) (status : Status) (raw : Option (List UInt8)) : Told Unit :=
  let key := ("path", path.describe)
  match raw.map Element.decode with
  | some (.ok e) =>
    tell .info "event report" [key, ("status", status.describe), ("event", e.outline)]
  | some (.error fault) => tell .warn "undecodable event report" [key, ("error", fault.message)]
  | none => tell .info "event report without payload" [key, ("status", status.describe)]

/-- Takes in what arrived. Payloads of reports stand where the locator says. -/
def receive (locator : Locator) (b : Bench) : Arrival → Told Bench
  | .response path status raw => b.receiveResponse path status raw
  | .report path status raw => b.receiveReport locator path status raw
  | .event path status raw => do
    tellEvent path status raw
    return b
  | .failure exchange code => b.receiveFailure exchange code

end Bench

end DeviceTrial
