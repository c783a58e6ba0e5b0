import DeviceTrial.Envelope.Notation
import DeviceTrial.Files
import DeviceTrial.Snapshot.Image
import DeviceTrial.Timestamp

namespace DeviceTrial

def SortedMap.json {κ α : Type} [Ranked κ] (key : κ → Nat) (value : α → Json) (m : SortedMap κ α) :
    Json :=
  .object (m.entries.map fun e => (Numeral.decimal (key e.1), value e.2))

def Entry.json : Entry → Json
  | unreadable => .text "unreadable"
  | value type e => .object [("type", .text type), ("value", e.json)]

def ClusterImage.json (c : ClusterImage) : Json :=
  .object [("revision", .ofNat c.revision.toNat),
    ("attributes", c.attributes.json UInt32.toNat Entry.json)]

def DeviceType.json (t : DeviceType) : Json :=
  .object [("id", .ofNat t.id.toNat), ("revision", .ofNat t.revision.toNat)]

def EndpointImage.json (e : EndpointImage) : Json :=
  .object [("deviceTypes", .array (e.deviceTypes.map DeviceType.json)),
    ("clusters", e.clusters.json UInt32.toNat ClusterImage.json)]

def NodeImage.json (n : NodeImage) : Json :=
  .object [("endpoints", n.endpoints.json UInt16.toNat EndpointImage.json)]

/-- An identity that is not known is left out. -/
def Snapshot.json (s : Snapshot) : Json :=
  let fabric := s.fabric.toList.map fun f => ("fabricId", Json.ofNat f.toNat)
  let vendor := s.vendor.toList.map fun v => ("vendorId", Json.ofNat v.toNat)
  .object ([("timestamp", .text s.timestamp)] ++ fabric ++ vendor ++
    [("nodes", s.nodes.json UInt64.toNat NodeImage.json),
      ("history", .array (s.history.map .text))])

open Json (Fault Scope Field)

variable {ρ α : Type}

def Entry.ofJson? : Json → Option Entry
  | .text word => if word = "unreadable" then some unreadable else none
  | .object [("unreadable", .null)] => some unreadable
  | .object fields => do
    match ← Json.field? "type" fields with
    | .text type =>
      let d ← Description.ofJson? (← Json.field? "value" fields)
      value type (← d.element.toOption)
    | _ => none
  | _ => none

def readEntry (scope : Scope) (cs : List Char) : Except (Fault ρ) (Entry × List Char) := do
  let (j, cs) ← Json.readValue scope cs
  match Entry.ofJson? j with
  | some entry => return (entry, cs)
  | none => throw .shape

/-- An object whose keys are ids below a bound. Of two entries with one key the later counts. -/
def readMap {κ : Type} [Ranked κ] (bound : Nat) (key : Nat → κ)
    (read : Scope → List Char → Except (Fault ρ) (α × List Char)) (scope : Scope) (cs : List Char) :
    Except (Fault ρ) (SortedMap κ α × List Char) := do
  let (entries, cs) ← Json.readObject scope (Json.numeralKey bound) read cs
  return (.ofList (entries.map fun e => (key e.1, e.2)), cs)

/-- A record of two fields, both of which have to be given. -/
def pairFields {β : Type} (first second : String)
    (readFirst : Scope → List Char → Except (Fault ρ) (α × List Char))
    (readSecond : Scope → List Char → Except (Fault ρ) (β × List Char)) :
    List (Field ρ (Option α × Option β)) := [
  { name := first
    given := fun d => d.1.isSome
    read := fun scope d cs => do
      let (a, cs) ← readFirst scope cs
      return ((some a, d.2), cs)
    optional := false },
  { name := second
    given := fun d => d.2.isSome
    read := fun scope d cs => do
      let (b, cs) ← readSecond scope cs
      return ((d.1, some b), cs)
    optional := false }]

def readPair {β : Type} (fields : List (Field ρ (Option α × Option β))) (scope : Scope)
    (cs : List Char) :
    Except (Fault ρ) (α × β × List Char) := do
  match ← Json.readRecord fields scope (none, none) cs with
  | ((some a, some b), cs) => return (a, b, cs)
  | _ => throw .shape

def readDeviceType (scope : Scope) (cs : List Char) :
    Except (Fault ρ) (DeviceType × List Char) := do
  let fields :=
    pairFields "id" "revision" (fun _ => Json.readNatural UInt32.size)
      (fun _ => Json.readNatural UInt16.size)
  let (id, revision, cs) ← readPair fields scope cs
  return (⟨UInt32.ofNat id, UInt16.ofNat revision⟩, cs)

def readCluster (scope : Scope) (cs : List Char) : Except (Fault ρ) (ClusterImage × List Char) := do
  let fields := pairFields "revision" "attributes" (fun _ => Json.readNatural UInt16.size)
    (readMap UInt32.size UInt32.ofNat readEntry)
  let (revision, attributes, cs) ← readPair fields scope cs
  return (⟨UInt16.ofNat revision, attributes⟩, cs)

def readEndpoint (scope : Scope) (cs : List Char) :
    Except (Fault ρ) (EndpointImage × List Char) := do
  let fields :=
    pairFields "deviceTypes" "clusters" (fun scope => Json.readArray scope readDeviceType)
    (readMap UInt32.size UInt32.ofNat readCluster)
  let (deviceTypes, clusters, cs) ← readPair fields scope cs
  return (⟨deviceTypes, clusters⟩, cs)

def nodeFields : List (Field ρ (Option (SortedMap EndpointId EndpointImage))) := [
  { name := "endpoints"
    given := fun d => d.isSome
    read := fun scope _ cs => do
      let (endpoints, cs) ← readMap UInt16.size UInt16.ofNat readEndpoint scope cs
      return (some endpoints, cs)
    optional := false }]

def readNode (scope : Scope) (cs : List Char) : Except (Fault ρ) (NodeImage × List Char) := do
  match ← Json.readRecord nodeFields scope none cs with
  | (some endpoints, cs) => return (⟨endpoints⟩, cs)
  | _ => throw .shape

/-- What has been read of a snapshot. An identity may be given as null. -/
structure SnapshotDraft where
  timestamp : Option String := none
  fabric : Option (Option FabricId) := none
  vendor : Option (Option VendorId) := none
  nodes : Option (SortedMap NodeId NodeImage) := none
  history : Option (List String) := none

def snapshotFields : List (Field ρ SnapshotDraft) := [
  { name := "timestamp"
    given := fun d => d.timestamp.isSome
    read := fun _ d cs => do
      let (t, cs) ← Json.readText cs
      return ({ d with timestamp := some t }, cs)
    optional := false },
  { name := "fabricId"
    given := fun d => d.fabric.isSome
    read := fun _ d cs => do
      let (n, cs) ← Json.readOption (Json.readNatural UInt64.size) cs
      return ({ d with fabric := some (n.map UInt64.ofNat) }, cs)
    optional := true },
  { name := "vendorId"
    given := fun d => d.vendor.isSome
    read := fun _ d cs => do
      let (n, cs) ← Json.readOption (Json.readNatural UInt16.size) cs
      return ({ d with vendor := some (n.map UInt16.ofNat) }, cs)
    optional := true },
  { name := "nodes"
    given := fun d => d.nodes.isSome
    read := fun scope d cs => do
      let (nodes, cs) ← readMap UInt64.size UInt64.ofNat readNode scope cs
      return ({ d with nodes := some nodes }, cs)
    optional := false },
  { name := "history"
    given := fun d => d.history.isSome
    read := fun scope d cs => do
      let (lines, cs) ← Json.readArray scope (fun _ => Json.readText) cs
      return ({ d with history := some lines }, cs)
    optional := true }]

def readSnapshot (scope : Scope) (cs : List Char) : Except (Fault ρ) (Snapshot × List Char) := do
  match ← Json.readRecord snapshotFields scope {} cs with
  | (⟨some timestamp, fabric, vendor, some nodes, history⟩, cs) =>
    return (⟨timestamp, fabric.join, vendor.join, nodes, history.getD []⟩, cs)
  | _ => throw .shape

namespace Snapshot

def ofText (text : String) : Except (Fault Empty) Snapshot := do
  let cs := text.toList
  let (s, rest) ← readSnapshot (.ofText cs) cs
  Json.finish rest
  return s

def fileText (s : Snapshot) : String := s.json.pretty

end Snapshot

inductive SnapshotFault where
  | unreadable (fault : FileFault)
  /-- A file stands where the directory should be. -/
  | blocked
  | notJson (fault : Fault Empty)
  | badTimestamp (timestamp : String)
  | malformed (fault : StoreFault)

/-- The snapshot of a file. Bytes that are no text break the grammar. -/
def Snapshot.ofFile (content : FileContent) : Except SnapshotFault Snapshot :=
  match content with
  | .unreadable fault => .error (.unreadable fault)
  | .binary => .error (.notJson .grammar)
  | .text text =>
    match ofText text with
    | .error fault => .error (.notJson fault)
    | .ok s => if Timestamp.isValid s.timestamp then .ok s else .error (.badTimestamp s.timestamp)

def SnapshotFault.message : SnapshotFault → String
  | unreadable fault => "Snapshot I/O error: " ++ fault.message
  | blocked => "Snapshot I/O error: File exists (os error 17)"
  | notJson _ => "Snapshot deserialization error: JSON operation error"
  | badTimestamp timestamp => "Malformed snapshot: timestamp " ++ Text.quoted timestamp
  | malformed fault => "Malformed snapshot: " ++ fault.message

end DeviceTrial
