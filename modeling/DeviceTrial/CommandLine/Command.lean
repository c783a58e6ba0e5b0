import DeviceTrial.CommandLine.Arguments
import DeviceTrial.Envelope.Outline
import DeviceTrial.Envelope.Reader
import DeviceTrial.Settings.Notation
import DeviceTrial.Snapshot.Notation
import DeviceTrial.Text.Blank

namespace DeviceTrial.CommandLine

inductive Command where
  | decode (hex : String)
  | snapshot (file : String) (path : Option AttributePath)
  | config (file : Option String)

def topForms : List OptionForm := [⟨'c', "config-file", true⟩, ⟨'v', "verbose", false⟩]

def snapshotForms : List OptionForm := [⟨'a', "attribute", true⟩]

/-- The value of an option that may be given once. -/
def once : List (Option String) → Option (Option String)
  | [] => some none
  | [some v] => some (some v)
  | _ => none

def fileName (s : String) : Option String := if s.isEmpty then none else some s

def optionalFile : Option String → Option (Option String)
  | none => some none
  | some s => (fileName s).map some

def commandNames : List String := ["decode", "snapshot", "config"]

def parse (args : List String) : Option Command := do
  let top ← readArguments topForms commandNames.contains [] [] none args
  if !top.operands.isEmpty then none
  let config ← optionalFile (← once (top.values 'c'))
  match top.rest with
  | "decode" :: rest =>
    match ← readArguments [] (fun _ => false) [] [] none rest with
    | ⟨_, [hex], _⟩ => return .decode hex
    | _ => none
  | "snapshot" :: rest =>
    let given ← readArguments snapshotForms (fun _ => false) [] [] none rest
    let path ← match ← once (given.values 'a') with
      | none => some none
      | some text => (AttributePath.parse text).toOption.map some
    match given.operands with
    | [file] => return .snapshot (← fileName file) path
    | _ => none
  | "config" :: rest =>
    match ← readArguments [] (fun _ => false) [] [] none rest with
    | ⟨_, [], _⟩ => return .config config
    | _ => none
  | _ => none

inductive CommandFault where
  | notHex (fault : Hex.Fault)
  | envelope (fault : EnvelopeFault)
  | snapshot (fault : SnapshotFault)
  | noAttribute (path : AttributePath) (file : String)
  | settings (fault : SettingsFault)

def CommandFault.message : CommandFault → String
  | notHex fault => "Input is not valid hex: " ++ fault.message
  | envelope fault => fault.message
  | snapshot fault => fault.message
  | noAttribute path file => "No attribute " ++ path.describe ++ " in " ++ Text.quoted file
  | settings fault => fault.message

def showEnvelope (hex : String) : Except CommandFault String :=
  match Hex.decode (Text.trim hex) with
  | .error fault => .error (.notHex fault)
  | .ok bytes =>
    match Element.decode bytes with
    | .error fault => .error (.envelope fault)
    | .ok e => .ok (e.outline ++ "\n")

def clusterLine (c : ClusterId × ClusterImage) : String :=
  "    Cluster " ++ Numeral.marked 4 c.1.toNat ++ " rev " ++ Numeral.decimal c.2.revision.toNat ++
    ": " ++ Numeral.decimal c.2.attributes.size ++ " attributes\n"

def deviceTypeText (t : DeviceType) : String :=
  Numeral.marked 4 t.id.toNat ++ "/r" ++ Numeral.decimal t.revision.toNat

def endpointLines (e : EndpointId × EndpointImage) : String :=
  "  Endpoint " ++ Numeral.decimal e.1.toNat ++ " [" ++
    ", ".intercalate (e.2.deviceTypes.map deviceTypeText) ++ "]\n" ++
    String.join (e.2.clusters.entries.map clusterLine)

def nodeLines (n : NodeId × NodeImage) : String :=
  "Node " ++ Numeral.decimal n.1.toNat ++ "\n" ++
    String.join (n.2.endpoints.entries.map endpointLines)

def summary (s : Snapshot) : String :=
  let fabric := s.fabric.toList.map fun f => "Fabric: " ++ Numeral.marked 1 f.toNat ++ "\n"
  let vendor := s.vendor.toList.map fun v => "Vendor: " ++ Numeral.marked 4 v.toNat ++ "\n"
  "Captured: " ++ s.timestamp ++ "\n" ++ String.join (fabric ++ vendor) ++
    String.join (s.nodes.entries.map nodeLines) ++
    "Attributes: " ++ Numeral.decimal s.attributeCount ++ ", commands in history: " ++
    Numeral.decimal s.history.length ++ "\n"

def showEntry (file : String) (path : AttributePath) (s : Snapshot) : Except CommandFault String :=
  match s.entry? path with
  | none => .error (.noAttribute path file)
  | some .unreadable => .ok (path.describe ++ " = unreadable\n")
  | some (.value _ e) => .ok (path.describe ++ "\n" ++ e.outline ++ "\n")

def showSnapshot (files : String → FileContent) (file : String) (path : Option AttributePath) :
    Except CommandFault String :=
  match Snapshot.ofFile (files file) with
  | .error fault => .error (.snapshot fault)
  | .ok s =>
    match path with
    | none => .ok (summary s)
    | some path => showEntry file path s

/-- The settings of the file that was asked for, or of the usual one, if there is one. -/
def settingsOf (files : String → FileContent) (usual : String) :
    Option String → Except SettingsFault Settings
  | some file => Settings.ofFile file (files file)
  | none =>
    match files usual with
    | .unreadable .notFound => .ok {}
    | content => Settings.ofFile usual content

def showSettings (files : String → FileContent) (usual : String) (file : Option String) :
    Except CommandFault String :=
  match settingsOf files usual file >>= Settings.fileText with
  | .error fault => .error (.settings fault)
  | .ok text => .ok text

def Command.run (files : String → FileContent) (usual : String) :
    Command → Except CommandFault String
  | decode hex => showEnvelope hex
  | snapshot file path => showSnapshot files file path
  | config file => showSettings files usual file

end DeviceTrial.CommandLine
