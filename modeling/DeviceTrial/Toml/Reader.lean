import DeviceTrial.Toml.Number
import DeviceTrial.Toml.Table
import DeviceTrial.Toml.Text

namespace DeviceTrial.Toml

/-- The deepest nesting of arrays and tables within a value. -/
def deepest : Nat := 79

/-- The most words of a key. -/
def longestKey : Nat := 79

def skipComment (cs : List Char) : List Char :=
  match cs with
  | '#' :: rest => rest.dropWhile isPlain
  | _ => cs

/-- The end of a line behind blanks and a comment. The text may end there. -/
def lineEnd (cs : List Char) : Option (List Char) :=
  match skipComment (skipBlanks cs) with
  | [] => some []
  | cs => newline? cs

def skipLines : (fuel : Nat) → List Char → List Char
  | 0, cs => cs
  | fuel + 1, cs =>
    match newline? (skipComment (skipBlanks cs)) with
    | some rest => skipLines fuel rest
    | none => skipBlanks cs

def isWordChar (c : Char) : Bool :=
  decide (('a' ≤ c ∧ c ≤ 'z') ∨ ('A' ≤ c ∧ c ≤ 'Z') ∨ ('0' ≤ c ∧ c ≤ '9') ∨ c = '-' ∨ c = '_')

def keyWord (cs : List Char) : Option (String × List Char) :=
  match cs with
  | '\x22' :: rest => (basicText [] rest).map fun (s, rest) => (String.ofList s, rest)
  | '\x27' :: rest => (literalText [] rest).map fun (s, rest) => (String.ofList s, rest)
  | _ =>
    let word := cs.takeWhile isWordChar
    if word.isEmpty then none else some (String.ofList word, cs.dropWhile isWordChar)

def keyPath : (fuel : Nat) → List Char → Option (List String × List Char)
  | 0, _ => none
  | fuel + 1, cs => do
    let (word, rest) ← keyWord (skipBlanks cs)
    match skipBlanks rest with
    | '.' :: rest =>
      let (words, rest) ← keyPath fuel rest
      return (word :: words, rest)
    | rest => return ([word], rest)

def key (fuel : Nat) (cs : List Char) : Option (List String × List Char) := do
  let (words, rest) ← keyPath fuel cs
  if words.length ≤ longestKey then some (words, rest) else none

def items (read : List Char → Option (Toml × List Char)) :
    (fuel : Nat) → List Toml → List Char → Option (List Toml × List Char)
  | 0, _, _ => none
  | fuel + 1, acc, cs =>
    match skipLines fuel cs with
    | ']' :: rest => some (acc.reverse, rest)
    | cs => do
      let (v, rest) ← read cs
      match skipLines fuel rest with
      | ',' :: rest => items read fuel (v :: acc) rest
      | ']' :: rest => some ((v :: acc).reverse, rest)
      | _ => none

def assignment (fuel : Nat) (read : List Char → Option (Toml × List Char)) (cs : List Char) :
    Option ((List String × Toml) × List Char) := do
  let (path, rest) ← key fuel cs
  match rest with
  | '=' :: rest =>
    let (v, rest) ← read (skipBlanks rest)
    return ((path, v), rest)
  | _ => none

/-- The assignments within braces, up to the closing one. No comma may stand before it. -/
def assignments (read : List Char → Option (Toml × List Char)) :
    (fuel : Nat) → List (List String × Toml) → List Char →
      Option (List (List String × Toml) × List Char)
  | 0, _, _ => none
  | fuel + 1, acc, cs => do
    let (pair, rest) ← assignment fuel read cs
    match skipBlanks rest with
    | ',' :: rest => assignments read fuel (pair :: acc) rest
    | '\x7d' :: rest => some ((pair :: acc).reverse, rest)
    | _ => none

def inlineTable (fuel : Nat) (read : List Char → Option (Toml × List Char)) (cs : List Char) :
    Option (Toml × List Char) :=
  match skipBlanks cs with
  | '\x7d' :: rest => some (.table [], rest)
  | cs => do
    let (pairs, rest) ← assignments read fuel [] cs
    let entries ← pairs.foldlM (fun es pair => Entries.assign pair.1 pair.2 es) []
    return (.table (Entries.toml entries), rest)

/-- A value whose parts are read as given, or not at all where nothing more may be nested. -/
def valueWith (fuel : Nat) (inside : Option (List Char → Option (Toml × List Char)))
    (cs : List Char) :
    Option (Toml × List Char) :=
  match cs with
  | '\x22' :: _ | '\x27' :: _ => (readText cs).map fun (s, rest) => (.text (String.ofList s), rest)
  | '[' :: rest =>
    inside.bind fun read => (items read fuel [] rest).map fun (vs, rest) => (.array vs, rest)
  | '\x7b' :: rest => inside.bind fun read => inlineTable fuel read rest
  | 't' :: 'r' :: 'u' :: 'e' :: rest => some (.bool true, rest)
  | 'f' :: 'a' :: 'l' :: 's' :: 'e' :: rest => some (.bool false, rest)
  | _ => readNumber cs

def valueAt (fuel : Nat) : (room : Nat) → List Char → Option (Toml × List Char)
  | 0 => valueWith fuel none
  | room + 1 => valueWith fuel (some (valueAt fuel room))

/-- A statement, at its first character, with the rest of its line. -/
def statement (fuel : Nat) (cs : List Char) : Option (Statement × List Char) :=
  match cs with
  | '[' :: '[' :: rest => do
    let (path, rest) ← key fuel rest
    match rest with
    | ']' :: ']' :: rest => return (.element path, ← lineEnd rest)
    | _ => none
  | '[' :: rest => do
    let (path, rest) ← key fuel rest
    match rest with
    | ']' :: rest => return (.table path, ← lineEnd rest)
    | _ => none
  | _ => do
    let ((path, value), rest) ← assignment fuel (valueAt fuel deepest) cs
    return (.assign path value, ← lineEnd rest)

def statements : (fuel : Nat) → List Char → Option (List Statement)
  | 0, _ => none
  | fuel + 1, cs =>
    match skipBlanks cs with
    | [] => some []
    | '#' :: _ => do statements fuel (← lineEnd cs)
    | '\n' :: _ | '\r' :: _ => do statements fuel (← lineEnd cs)
    | cs => do
      let (s, rest) ← statement (cs.length + 1) cs
      return s :: (← statements fuel rest)

/-- The fields of the table that a file is. A mark of byte order at its start is passed. -/
def ofText? (text : String) : Option (List (String × Toml)) := do
  let cs := match text.toList with
    | '\ufeff' :: cs => cs
    | cs => cs
  return Entries.toml (← Entries.ofStatements? (← statements (cs.length + 1) cs))

end DeviceTrial.Toml
