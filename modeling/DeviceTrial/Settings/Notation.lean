import DeviceTrial.Files
import DeviceTrial.Settings.Basic
import DeviceTrial.Text.Quoted
import DeviceTrial.Toml.Reader

namespace DeviceTrial

namespace Toml

def natural? (bound : Nat) : Toml → Option Nat
  | integer v => if 0 ≤ v ∧ v < bound then some v.toNat else none
  | _ => none

def bool? : Toml → Option Bool
  | bool v => some v
  | _ => none

def text? : Toml → Option String
  | text v => some v
  | _ => none

end Toml

/-- A field of a section: its name, its value as it is written, and how one that was read is set. -/
structure Setting where
  name : String
  shown : Settings → Option String
  set : Settings → Toml → Option Settings

namespace Setting

def number (name : String) (get : Settings → Nat) (bound : Nat) (set : Settings → Nat → Settings) :
    Setting :=
  ⟨name, fun s => some (Numeral.decimal (get s)), fun s v => (v.natural? bound).map (set s)⟩

end Setting

namespace Settings

def sections : List (String × List Setting) := [
  ("fuzzer", [
    .number "destination" (·.destination.toNat) UInt64.size fun s n =>
      { s with destination := UInt64.ofNat n },
    .number "iterations" (·.iterations.toNat) UInt64.size fun s n =>
      { s with iterations := UInt64.ofNat n }]),
  ("oracle", [
    .number "unreachable-timeout-streak" (·.patience.toNat) UInt32.size fun s n =>
      { s with patience := UInt32.ofNat n }]),
  ("round", [
    .number "subscription-wait-ms" (·.wait.toNat) UInt64.size fun s n =>
      { s with wait := UInt64.ofNat n },
    .number "subscription-timeout-limit" (·.limit.toNat) UInt32.size fun s n =>
      { s with limit := UInt32.ofNat n },
    ⟨"await-subscriptions", fun s => some (if s.awaitReports then "true" else "false"), fun s v =>
      v.bool?.map fun b => { s with awaitReports := b }⟩]),
  ("snapshot", [
    ⟨"directory", fun s => s.directory.map Toml.quote, fun s v =>
      v.text?.map fun d => { s with directory := some d }⟩])]

def largest : Nat := UInt64.size / 2 - 1

def fits (s : Settings) : Bool :=
  s.destination.toNat ≤ largest && s.iterations.toNat ≤ largest && s.wait.toNat ≤ largest

def line (s : Settings) (f : Setting) : String :=
  match f.shown s with
  | some v => f.name ++ " = " ++ v ++ "\n"
  | none => ""

def block (s : Settings) (sec : String × List Setting) : String :=
  "[" ++ sec.1 ++ "]\n" ++ String.join (sec.2.map s.line)

def toml? (s : Settings) : Option String :=
  if s.fits then some ("\n".intercalate (sections.map s.block)) else none

def readFields (fields : List Setting) (s : Settings) : List (String × Toml) → Option Settings
  | [] => some s
  | (name, v) :: rest => do
    let f ← fields.find? (·.name = name)
    readFields fields (← f.set s v) rest

/-- A section may also be an array of its fields in order. -/
def readItems (s : Settings) : List Setting → List Toml → Option Settings
  | f :: fs, v :: vs => do readItems (← f.set s v) fs vs
  | _, _ => some s

def readSection (fields : List Setting) (s : Settings) : Toml → Option Settings
  | .table entries => readFields fields s entries
  | .array items => readItems s fields items
  | _ => none

def readSections (s : Settings) : List (String × Toml) → Option Settings
  | [] => some s
  | (name, v) :: rest => do
    let sec ← sections.find? (·.1 = name)
    readSections (← readSection sec.2 s v) rest

/-- The settings of a text. What it does not set keeps its default. -/
def ofText? (text : String) : Option Settings := do readSections {} (← Toml.ofText? text)

end Settings

inductive SettingsFault where
  | unreadable (path : String) (fault : FileFault)
  | binary (path : String)
  | invalid (path : String)
  | outOfRange
  deriving DecidableEq, Repr

def SettingsFault.message : SettingsFault → String
  | unreadable path fault =>
    "Failed to read config file at " ++ Text.quoted path ++ ": " ++ fault.message
  | binary path =>
    "Failed to read config file at " ++ Text.quoted path ++ ": stream did not contain valid UTF-8"
  | invalid path => "Failed to parse TOML from config file " ++ Text.quoted path
  | outOfRange => "Failed to render config as TOML: out-of-range value for u64 type"

def Settings.ofFile (path : String) : FileContent → Except SettingsFault Settings
  | .unreadable fault => .error (.unreadable path fault)
  | .binary => .error (.binary path)
  | .text content =>
    match ofText? content with
    | some s => .ok s
    | none => .error (.invalid path)

def Settings.fileText (s : Settings) : Except SettingsFault String :=
  match s.toml? with
  | some text => .ok text
  | none => .error .outOfRange

end DeviceTrial
