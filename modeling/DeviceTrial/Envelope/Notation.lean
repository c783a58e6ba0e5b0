import DeviceTrial.Envelope.Description
import DeviceTrial.Json.Reader

namespace DeviceTrial

def Kind.word : Kind → String
  | boolean => "boolean"
  | signed => "signed-integer"
  | unsigned => "unsigned-integer"
  | float => "float"
  | text => "utf8-string"
  | bytes => "byte-string"
  | null => "null"
  | struct => "structure"
  | array => "array"
  | list => "list"

def Kind.all : List Kind :=
  [boolean, signed, unsigned, float, text, bytes, null, struct, array, list]

def Kind.ofWord? (word : String) : Option Kind := all.find? (·.word = word)

theorem Kind.ofWord?_word (kind : Kind) : ofWord? kind.word = some kind := by
  cases kind <;> decide

def Tag.json : Tag → Json
  | anonymous => .text "anonymous"
  | context n => .object [("context", .ofNat n.toNat)]
  | common n => .object [("common-profile", .ofNat n.toNat)]
  | implicit n => .object [("implicit-profile", .ofNat n.toNat)]
  | qualified vendor profile n =>
    .object [("fully-qualified",
      .object [("vendor", .ofNat vendor.toNat), ("profile", .ofNat profile.toNat),
      ("tag", .ofNat n.toNat)])]

def Literal.json : Literal → Json
  | null => .null
  | bool v => .bool v
  | integer v => .integer v
  | float v => .float v
  | text v => .text v

namespace Description

def fields (kind : Kind) (width : UInt8) (tag : Tag) (value : Json) : Json :=
  .object [("type", .text kind.word), ("width", .ofNat width.toNat), ("tag", tag.json),
    ("value", value)]

mutual
def json : Description → Json
  | leaf kind width tag value => fields kind width tag value.json
  | node kind width tag children => fields kind width tag (.array (jsons children))

def jsons : List Description → List Json
  | [] => []
  | d :: ds => json d :: jsons ds
end

/-- A description from its parts: a literal, or the descriptions of children. -/
def make (kind : Kind) (width : UInt8) (tag : Tag) : Literal ⊕ List Description → Description
  | .inl value => leaf kind width tag value
  | .inr children => node kind width tag children

end Description

def Element.json (e : Element) : Json := e.description.json

namespace Json

def natural? (bound : Nat) : Json → Option Nat
  | natural v => if v.toNat < bound then some v.toNat else none
  | _ => none

def null? : Json → Option Unit
  | null => some ()
  | _ => none

/-- The value of a field that is given once. -/
def field? (name : String) (fields : List (String × Json)) : Option Json :=
  match fields.filter (·.1 = name) with
  | [f] => some f.2
  | _ => none

def isGiven (name : String) (fields : List (String × Json)) : Bool := fields.any (·.1 = name)

/-- The value of a field that may be left out, but not given twice. -/
def optional? {α : Type} (name : String) (absent : α) (read : Json → Option α)
    (fields : List (String × Json)) : Option α :=
  if isGiven name fields then (field? name fields).bind read else some absent

end Json

def Kind.ofJson? : Json → Option Kind
  | .text word => ofWord? word
  | .object [(word, .null)] => ofWord? word
  | _ => none

namespace Tag

def ofParts (vendor profile n : Nat) : Tag :=
  qualified (UInt16.ofNat vendor) (UInt16.ofNat profile) (UInt32.ofNat n)

def qualifiedOf? : Json → Option Tag
  | .array [vendor, profile, n] => do
    return ofParts (← vendor.natural? UInt16.size) (← profile.natural? UInt16.size)
      (← n.natural? UInt32.size)
  | .object fields => do
    let vendor ← (← Json.field? "vendor" fields).natural? UInt16.size
    let profile ← (← Json.field? "profile" fields).natural? UInt16.size
    let n ← (← Json.field? "tag" fields).natural? UInt32.size
    return ofParts vendor profile n
  | _ => none

def ofJson? : Json → Option Tag
  | .text "anonymous" => some anonymous
  | .object [(name, value)] =>
    match name with
    | "anonymous" => value.null?.map fun _ => anonymous
    | "context" => (value.natural? UInt8.size).map fun n => context (UInt8.ofNat n)
    | "common-profile" => (value.natural? UInt32.size).map fun n => common (UInt32.ofNat n)
    | "implicit-profile" => (value.natural? UInt32.size).map fun n => implicit (UInt32.ofNat n)
    | "fully-qualified" => qualifiedOf? value
    | _ => none
  | _ => none

end Tag

namespace Description

def widthOf? (j : Json) : Option UInt8 := (j.natural? UInt8.size).map UInt8.ofNat

mutual
def ofJson? : Json → Option Description
  | .array [kind, width, tag, value] => do
    return make (← Kind.ofJson? kind) (← widthOf? width) (← Tag.ofJson? tag) (← valueOf? value)
  | .object fields => do
    let kind ← Kind.ofJson? (← Json.field? "type" fields)
    let width ← Json.optional? "width" 0 widthOf? fields
    let tag ← Json.optional? "tag" .anonymous Tag.ofJson? fields
    let _ ← Json.field? "value" fields
    return make kind width tag (← valueIn? fields)
  | _ => none

/-- The value of a description: a literal, or a list of descriptions. -/
def valueOf? : Json → Option (Literal ⊕ List Description)
  | .null => some (.inl .null)
  | .bool v => some (.inl (.bool v))
  | .natural v => some (.inl (.integer v.toNat))
  | .negative v => some (.inl (.integer v.toInt))
  | .float v => some (.inl (.float v))
  | .text v => some (.inl (.text v))
  | .array items => (ofJsons? items).map .inr
  | .object _ => none

def ofJsons? : List Json → Option (List Description)
  | [] => some []
  | j :: js => do return (← ofJson? j) :: (← ofJsons? js)

def valueIn? : List (String × Json) → Option (Literal ⊕ List Description)
  | [] => none
  | f :: fs => if f.1 = "value" then valueOfField? f else valueIn? fs

def valueOfField? : String × Json → Option (Literal ⊕ List Description)
  | (_, j) => valueOf? j
end

end Description

open Json (Fault Scope Field)

variable {ρ : Type}

structure Draft where
  kind : Option Kind := none
  width : Option UInt8 := none
  tag : Option Tag := none
  value : Option (Literal ⊕ List Description) := none

def readKind (scope : Scope) (cs : List Char) : Except (Fault ρ) (Kind × List Char) :=
  Json.readAlternative scope (fun name => (Kind.ofWord? name).isSome) Kind.ofWord?
    (fun name _ cs => do
      let rest ← Json.readNull cs
      match Kind.ofWord? name with
      | some kind => return (kind, rest)
      | none => throw .shape) cs

structure QualifiedDraft where
  vendor : Option Nat := none
  profile : Option Nat := none
  number : Option Nat := none

def qualifiedFields : List (Field ρ QualifiedDraft) := [
  { name := "vendor"
    given := fun d => d.vendor.isSome
    read := fun _ d cs => do
      let (n, cs) ← Json.readNatural UInt16.size cs
      return ({ d with vendor := some n }, cs)
    optional := false },
  { name := "profile"
    given := fun d => d.profile.isSome
    read := fun _ d cs => do
      let (n, cs) ← Json.readNatural UInt16.size cs
      return ({ d with profile := some n }, cs)
    optional := false },
  { name := "tag"
    given := fun d => d.number.isSome
    read := fun _ d cs => do
      let (n, cs) ← Json.readNatural UInt32.size cs
      return ({ d with number := some n }, cs)
    optional := false }]

def readQualified (scope : Scope) (cs : List Char) : Except (Fault ρ) (Tag × List Char) := do
  match ← Json.readRecord qualifiedFields scope {} cs with
  | (⟨some vendor, some profile, some n⟩, cs) => return (.ofParts vendor profile n, cs)
  | _ => throw .shape

def readTag (scope : Scope) (cs : List Char) : Except (Fault ρ) (Tag × List Char) :=
  Json.readAlternative scope
    (["anonymous", "context", "common-profile", "implicit-profile", "fully-qualified"].contains ·)
    (fun name => if name = "anonymous" then some .anonymous else none)
    (fun name scope cs =>
      match name with
      | "anonymous" => (Json.readNull cs).map fun cs => (.anonymous, cs)
      | "context" =>
        (Json.readNatural UInt8.size cs).map fun (n, cs) => (.context (UInt8.ofNat n), cs)
      | "common-profile" =>
        (Json.readNatural UInt32.size cs).map fun (n, cs) => (.common (UInt32.ofNat n), cs)
      | "implicit-profile" =>
        (Json.readNatural UInt32.size cs).map fun (n, cs) => (.implicit (UInt32.ofNat n), cs)
      | "fully-qualified" => readQualified scope cs
      | _ => .error .shape) cs

def draftFields : List (Field ρ Draft) := [
  { name := "type"
    given := fun d => d.kind.isSome
    read := fun scope d cs => do
      let (kind, cs) ← readKind scope cs
      return ({ d with kind := some kind }, cs)
    optional := false },
  { name := "width"
    given := fun d => d.width.isSome
    read := fun _ d cs => do
      let (n, cs) ← Json.readNatural UInt8.size cs
      return ({ d with width := some (UInt8.ofNat n) }, cs)
    optional := true },
  { name := "tag"
    given := fun d => d.tag.isSome
    read := fun scope d cs => do
      let (tag, cs) ← readTag scope cs
      return ({ d with tag := some tag }, cs)
    optional := true },
  { name := "value"
    given := fun d => d.value.isSome
    read := fun scope d cs => do
      let (j, cs) ← Json.readValue scope cs
      match Description.valueOf? j with
      | some v => return ({ d with value := some v }, cs)
      | none => throw .shape
    optional := false }]

def readDescription (scope : Scope) (cs : List Char) :
    Except (Fault ρ) (Description × List Char) := do
  match ← Json.readRecord draftFields scope {} cs with
  | (⟨some kind, width, tag, some value⟩, cs) =>
    return (.make kind (width.getD 0) (tag.getD .anonymous) value, cs)
  | _ => throw .shape

/-- Reads the description of an element. It is refused where it denotes none. -/
def readElement (scope : Scope) (cs : List Char) :
    Except (Fault EnvelopeFault) (Element × List Char) := do
  let (d, cs) ← readDescription scope cs
  match d.element with
  | .ok e => return (e, cs)
  | .error fault => throw (.refused fault)

def Element.ofText (text : String) : Except (Fault EnvelopeFault) Element := do
  let cs := text.toList
  let (e, rest) ← readElement (.ofText cs) cs
  Json.finish rest
  return e

end DeviceTrial
