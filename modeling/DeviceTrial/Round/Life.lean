import DeviceTrial.Paths
import DeviceTrial.Status

/-!
The life of one round.

A round goes from a request to a response and from there to a report of changed attributes, never
back. Updates come in any order: a report that overtakes the response is held until the response is
there, and an update that allows no step only leaves what it says behind.
-/

namespace DeviceTrial

inductive RoundStatus where
  | uninitialized
  | writeRequest
  | invokeRequest
  | writeResponse
  | invokeResponse
  | reported
  | terminated
  deriving DecidableEq, Repr

namespace RoundStatus

def describe : RoundStatus → String
  | uninitialized => "Uninitialized"
  | writeRequest => "NonInvokeRequest"
  | invokeRequest => "InvokeRequest"
  | writeResponse => "NonInvokeResponse"
  | invokeResponse => "InvokeResponse"
  | reported => "SubscriptionResponse"
  | terminated => "Terminated"

def isRequest : RoundStatus → Bool
  | writeRequest | invokeRequest => true
  | _ => false

def isResponse : RoundStatus → Bool
  | writeResponse | invokeResponse => true
  | _ => false

def request (isCommand : Bool) : RoundStatus := if isCommand then invokeRequest else writeRequest

def response (isCommand : Bool) : RoundStatus := if isCommand then invokeResponse else writeResponse

end RoundStatus

/-- A cell for the answer to a round: one that was handed in under a number, or the own one of a
round. -/
inductive Slot where
  | numbered (n : Nat)
  | own (round : Nat)
  deriving DecidableEq, Repr

instance : Ranked Slot where
  rank
    | .numbered n => 2 * n
    | .own n => 2 * n + 1
  rank_inj := by
    intro a b h
    cases a <;> cases b <;> simp only [Slot.numbered.injEq, Slot.own.injEq] at h ⊢ <;> omega

/-- What the driver waits on: a signal that was handed in under a number, or the driver's own. -/
inductive Signal where
  | own
  | numbered (n : Nat)
  deriving DecidableEq, Repr

instance : Ranked Signal where
  rank
    | .own => 0
    | .numbered n => n + 1
  rank_inj := by
    intro a b h
    cases a <;> cases b <;> simp only [Signal.numbered.injEq] at h ⊢ <;> omega

inductive RoundUpdate where
  | target (destination : NodeId) (path : CommandPath) (slot : Slot)
  | destination (destination : NodeId) (slot : Slot)
  | response (status : Status)
  | changed (paths : SortedSet AttributePath)
  | flags (waiting needsReport : Bool)

structure Round where
  id : Nat
  signal : Signal
  destination : Option NodeId
  status : RoundStatus
  path : Option CommandPath
  /-- The driver wants to see a report before the round ends. -/
  needsReport : Bool
  changed : SortedSet AttributePath
  slot : Option Slot
  response : Option Status

namespace Round

def new (id : Nat) (signal : Signal) : Round :=
  ⟨id, signal, none, .uninitialized, none, false, .empty, none, none⟩

def isCommand (r : Round) : Bool := r.path.any (·.isCommand)

/-- Where an update takes a round that already holds what the update says. -/
def next (r : Round) : RoundUpdate → RoundStatus
  | .target .. | .destination .. =>
    if r.status = .uninitialized ∨ r.status.isRequest then .request r.isCommand else r.status
  | .response _ =>
    if r.status.isRequest then if r.changed.isEmpty then .response r.isCommand else .reported
    else r.status
  | .changed _ => if r.status.isResponse ∧ !r.changed.isEmpty then .reported else r.status
  | .flags .. => r.status

def record (r : Round) : RoundUpdate → Round
  | .target destination path slot =>
    { r with destination := some destination, path := some path, slot := some slot }
  | .destination destination slot => { r with destination := some destination, slot := some slot }
  | .response status => { r with response := some status }
  | .changed paths => { r with changed := r.changed.union paths }
  | .flags _ needsReport => { r with needsReport }

def update (r : Round) (u : RoundUpdate) : Round :=
  let r := r.record u
  { r with status := r.next u }

/-- The report is there, or nothing is waited for any more. -/
def isPast (r : Round) : Bool := r.status = .reported || r.status = .terminated

end Round

end DeviceTrial
