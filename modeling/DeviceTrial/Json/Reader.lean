import DeviceTrial.Json.Number

/-!
JSON texts, read from the front.

A reader takes the characters before it and gives a value and the characters behind it, or the first
fault it meets. What is read decides what is a fault: a value of the wrong shape is told before a
mistake in grammar further on. Values may be nested as deep as the scope has room.
-/

namespace DeviceTrial.Json

variable {ρ α σ : Type}

/-- How many brackets may still be opened, and a bound on the count of items of an array or object.
-/
structure Scope where
  room : Nat
  fuel : Nat

namespace Scope

/-- The deepest nesting of brackets that is read. -/
def deepest : Nat := 127

def ofText (cs : List Char) : Scope := ⟨deepest, cs.length + 1⟩

def inner (scope : Scope) : Scope := ⟨scope.room - 1, scope.fuel⟩

end Scope

def isBlank (c : Char) : Bool := c = ' ' || c = '\n' || c = '\t' || c = '\r'

def skipBlanks (cs : List Char) : List Char := cs.dropWhile isBlank

/-- The rest of a word whose first letter has been seen. -/
def word (letters : List Char) (cs : List Char) : Except (Fault ρ) (List Char) :=
  match letters, cs with
  | [], cs => .ok cs
  | _ :: _, [] => .error .ended
  | l :: ls, c :: cs => if c = l then word ls cs else .error .grammar

def finish (cs : List Char) : Except (Fault ρ) Unit :=
  if (skipBlanks cs).isEmpty then .ok () else .error .grammar

def hexUnit (a b c d : Char) : Option Nat := Numeral.readFrom 16 0 [a, b, c, d]

/-- An escape by code unit that is not followed by four digits: cut off where fewer than four bytes
are left. -/
def badUnit (rest : List Char) : Fault ρ :=
  if (String.ofList (rest.take 4)).utf8ByteSize < 4 then .ended else .grammar

def escapeOf : Char → Option Char
  | '\x22' => some '\x22'
  | '\\' => some '\\'
  | '/' => some '/'
  | 'b' => some '\x08'
  | 'f' => some '\x0c'
  | 'n' => some '\n'
  | 'r' => some '\r'
  | 't' => some '\t'
  | _ => none

/-- The characters of a string up to its closing quote. A leading surrogate waits for its trailing
one. -/
def textBody (lead : Option Nat) (acc : List Char) :
    List Char → Except (Fault ρ) (String × List Char)
  | [] => .error .ended
  | '\\' :: 'u' :: a :: b :: c :: d :: rest =>
    match hexUnit a b c d with
    | none => .error .grammar
    | some unit =>
      match lead with
      | some high =>
        if 0xDC00 ≤ unit ∧ unit ≤ 0xDFFF then
          textBody none (Char.ofNat ((high - 0xD800) * 0x400 + (unit - 0xDC00) + 0x10000) :: acc)
            rest
        else .error .grammar
      | none =>
        if 0xDC00 ≤ unit ∧ unit ≤ 0xDFFF then .error .grammar
        else if 0xD800 ≤ unit ∧ unit ≤ 0xDBFF then textBody (some unit) acc rest
        else textBody none (Char.ofNat unit :: acc) rest
  | '\\' :: 'u' :: rest => .error (badUnit rest)
  | ['\\'] => .error .ended
  | '\\' :: c :: rest =>
    match lead, escapeOf c with
    | none, some e => textBody none (e :: acc) rest
    | _, _ => .error .grammar
  | c :: rest =>
    if lead.isSome then .error .grammar
    else if c = '\x22' then .ok (String.ofList acc.reverse, rest)
    else if c.toNat < 0x20 then .error .grammar
    else textBody none (c :: acc) rest

/-- Passes the characters of a string, with no regard to surrogates. -/
def skipText : List Char → Except (Fault ρ) (List Char)
  | [] => .error .ended
  | '\\' :: 'u' :: a :: b :: c :: d :: rest =>
    match hexUnit a b c d with
    | none => .error .grammar
    | some _ => skipText rest
  | '\\' :: 'u' :: rest => .error (badUnit rest)
  | ['\\'] => .error .ended
  | '\\' :: c :: rest => if (escapeOf c).isSome then skipText rest else .error .grammar
  | c :: rest =>
    if c = '\x22' then .ok rest
    else if c.toNat < 0x20 then .error .grammar
    else skipText rest

/-- The fault of a value that is none of those expected. A scalar is read before it is found to be
of the wrong shape. -/
def unexpected (cs : List Char) : Fault ρ :=
  let after {β : Type} (r : Except (Fault ρ) β) : Fault ρ := match r with
    | .error fault => fault
    | .ok _ => .shape
  match cs with
  | [] => .ended
  | 'n' :: rest => after (word ['u', 'l', 'l'] rest)
  | 't' :: rest => after (word ['r', 'u', 'e'] rest)
  | 'f' :: rest => after (word ['a', 'l', 's', 'e'] rest)
  | '\x22' :: rest => after (textBody none [] rest)
  | '[' :: _ | '\x7b' :: _ => .shape
  | c :: _ => if c = '-' ∨ Numeral.isDecimal c then after (readNumber cs) else .grammar

def readNull (cs : List Char) : Except (Fault ρ) (List Char) :=
  match skipBlanks cs with
  | 'n' :: rest => word ['u', 'l', 'l'] rest
  | cs => .error (unexpected cs)

def readText (cs : List Char) : Except (Fault ρ) (String × List Char) :=
  match skipBlanks cs with
  | '\x22' :: rest => textBody none [] rest
  | cs => .error (unexpected cs)

def boundedNumber (bound : Nat) (cs : List Char) : Except (Fault ρ) (Nat × List Char) := do
  match ← readNumber cs with
  | (.natural n, rest) => if n.toNat < bound then return (n.toNat, rest) else throw .shape
  | _ => throw .shape

def readNatural (bound : Nat) (cs : List Char) : Except (Fault ρ) (Nat × List Char) :=
  let cs := skipBlanks cs
  match cs with
  | c :: _ =>
    if c = '-' ∨ Numeral.isDecimal c then boundedNumber bound cs else .error (unexpected cs)
  | [] => .error .ended

def readOption (read : List Char → Except (Fault ρ) (α × List Char)) (cs : List Char) :
    Except (Fault ρ) (Option α × List Char) :=
  match skipBlanks cs with
  | 'n' :: rest => (word ['u', 'l', 'l'] rest).map (none, ·)
  | cs => (read cs).map fun (a, rest) => (some a, rest)

/-- Where the next item of an array stands, or none before the closing bracket, which stays. -/
def nextItem (first : Bool) (cs : List Char) : Except (Fault ρ) (Option (List Char)) :=
  match skipBlanks cs with
  | [] => .error .ended
  | ']' :: _ => .ok none
  | c :: rest =>
    if first then .ok (some (c :: rest))
    else if c = ',' then
      match skipBlanks rest with
      | [] => .error .ended
      | ']' :: _ => .error .grammar
      | cs => .ok (some cs)
    else .error .grammar

def closeArray (cs : List Char) : Except (Fault ρ) (List Char) :=
  match skipBlanks cs with
  | [] => .error .ended
  | ']' :: rest => .ok rest
  | _ => .error .grammar

/-- What follows the opening quote of the next key of an object, or none before the closing brace,
which stays. -/
def nextKey (first : Bool) (cs : List Char) : Except (Fault ρ) (Option (List Char)) :=
  match skipBlanks cs with
  | [] => .error .ended
  | '\x7d' :: _ => .ok none
  | c :: rest =>
    if first then if c = '\x22' then .ok (some rest) else .error .grammar
    else if c = ',' then
      match skipBlanks rest with
      | [] => .error .ended
      | '\x22' :: rest => .ok (some rest)
      | _ => .error .grammar
    else .error .grammar

def closeObject (cs : List Char) : Except (Fault ρ) (List Char) :=
  match skipBlanks cs with
  | [] => .error .ended
  | '\x7d' :: rest => .ok rest
  | _ => .error .grammar

def colon (cs : List Char) : Except (Fault ρ) (List Char) :=
  match skipBlanks cs with
  | [] => .error .ended
  | ':' :: rest => .ok rest
  | _ => .error .grammar

def items (read : List Char → Except (Fault ρ) (α × List Char)) :
    (fuel : Nat) → Bool → List α → List Char → Except (Fault ρ) (List α × List Char)
  | 0, _, _, _ => .error .grammar
  | fuel + 1, first, acc, cs => do
    match ← nextItem first cs with
    | none => return (acc.reverse, ← closeArray cs)
    | some cs =>
      let (a, cs) ← read cs
      items read fuel false (a :: acc) cs

def readArray (scope : Scope) (read : Scope → List Char → Except (Fault ρ) (α × List Char))
    (cs : List Char) :
    Except (Fault ρ) (List α × List Char) :=
  match skipBlanks cs with
  | '[' :: rest =>
    if scope.room = 0 then .error .grammar else items (read scope.inner) scope.fuel true [] rest
  | cs => .error (unexpected cs)

/-- The entries of an object; the key is read by one reader, from behind its opening quote, and the
value by another. -/
def entries (key : List Char → Except (Fault ρ) (α × List Char))
    (read : List Char → Except (Fault ρ) (σ × List Char)) :
    (fuel : Nat) → Bool → List (α × σ) → List Char → Except (Fault ρ) (List (α × σ) × List Char)
  | 0, _, _, _ => .error .grammar
  | fuel + 1, first, acc, cs => do
    match ← nextKey first cs with
    | none => return (acc.reverse, ← closeObject cs)
    | some cs =>
      let (k, cs) ← key cs
      let cs ← colon cs
      let (v, cs) ← read cs
      entries key read fuel false ((k, v) :: acc) cs

def readObject (scope : Scope) (key : List Char → Except (Fault ρ) (α × List Char))
    (read : Scope → List Char → Except (Fault ρ) (σ × List Char)) (cs : List Char) :
    Except (Fault ρ) (List (α × σ) × List Char) :=
  match skipBlanks cs with
  | '\x7b' :: rest =>
    if scope.room = 0 then .error .grammar
    else entries key (read scope.inner) scope.fuel true [] rest
  | cs => .error (unexpected cs)

def numeralKey (bound : Nat) (cs : List Char) : Except (Fault ρ) (Nat × List Char) :=
  match cs with
  | c :: _ =>
    if c = '-' ∨ Numeral.isDecimal c then do
      let (n, rest) ← boundedNumber bound cs
      match rest with
      | '\x22' :: rest => return (n, rest)
      | _ => throw .grammar
    else .error .grammar
  | [] => .error .grammar

/-- A value whose items are read as given, or not at all where no more brackets may be opened. -/
def valueWith (fuel : Nat) (inside : Option (List Char → Except (Fault ρ) (Json × List Char)))
    (cs : List Char) :
    Except (Fault ρ) (Json × List Char) := do
  let cs := skipBlanks cs
  match cs with
  | [] => throw .ended
  | 'n' :: rest => return (.null, ← word ['u', 'l', 'l'] rest)
  | 't' :: rest => return (.bool true, ← word ['r', 'u', 'e'] rest)
  | 'f' :: rest => return (.bool false, ← word ['a', 'l', 's', 'e'] rest)
  | '\x22' :: rest =>
    let (s, rest) ← textBody none [] rest
    return (.text s, rest)
  | '[' :: rest =>
    match inside with
    | none => throw .grammar
    | some read =>
      let (xs, rest) ← items read fuel true [] rest
      return (.array xs, rest)
  | '\x7b' :: rest =>
    match inside with
    | none => throw .grammar
    | some read =>
      let (fs, rest) ← entries (textBody none []) read fuel true [] rest
      return (.object fs, rest)
  | c :: _ => if c = '-' ∨ Numeral.isDecimal c then readNumber cs else throw .grammar

def valueAt (fuel : Nat) : (room : Nat) → List Char → Except (Fault ρ) (Json × List Char)
  | 0 => valueWith fuel none
  | room + 1 => valueWith fuel (some (valueAt fuel room))

def readValue (scope : Scope) (cs : List Char) : Except (Fault ρ) (Json × List Char) :=
  valueAt scope.fuel scope.room cs

inductive Bracket where
  | square
  | curly
  deriving DecidableEq, Repr

/-- Where the passing of a value stands: before a value, behind one, or just inside a bracket. -/
inductive Place where
  | before
  | behind
  | inside
  deriving DecidableEq, Repr

def skipKey (cs : List Char) : Except (Fault ρ) (List Char) :=
  match skipBlanks cs with
  | [] => .error .ended
  | '\x22' :: rest => do colon (← skipText rest)
  | _ => .error .grammar

def openValue (bracket : Bracket) (cs : List Char) : Except (Fault ρ) (List Char) :=
  match bracket with
  | .square => .ok cs
  | .curly => skipKey cs

def skipScalar (cs : List Char) : Except (Fault ρ) (List Char) :=
  match cs with
  | [] => .error .ended
  | 'n' :: rest => word ['u', 'l', 'l'] rest
  | 't' :: rest => word ['r', 'u', 'e'] rest
  | 'f' :: rest => word ['a', 'l', 's', 'e'] rest
  | '\x22' :: rest => skipText rest
  | '-' :: rest => skipUnsigned rest
  | c :: rest => if Numeral.isDecimal c then skipUnsigned (c :: rest) else .error .grammar

/-- Passes a value, nested to any depth: the brackets that are open stand in a list. -/
def skipFrom : (fuel : Nat) → List Bracket → Place → List Char → Except (Fault ρ) (List Char)
  | 0, _, _, _ => .error .grammar
  | fuel + 1, opened, place, cs =>
    match place, opened with
    | .before, _ =>
      match skipBlanks cs with
      | '[' :: rest => skipFrom fuel (.square :: opened) .inside rest
      | '\x7b' :: rest => skipFrom fuel (.curly :: opened) .inside rest
      | cs => do skipFrom fuel opened .behind (← skipScalar cs)
    | _, [] => .ok cs
    | place, bracket :: outer =>
      match skipBlanks cs, bracket with
      | [], _ => .error .ended
      | ']' :: rest, .square => skipFrom fuel outer .behind rest
      | '\x7d' :: rest, .curly => skipFrom fuel outer .behind rest
      | c :: rest, bracket =>
        if place = .inside then do skipFrom fuel opened .before (← openValue bracket (c :: rest))
        else if c = ',' then do skipFrom fuel opened .before (← openValue bracket rest)
        else .error .grammar

def skipValue (scope : Scope) (cs : List Char) : Except (Fault ρ) (List Char) :=
  skipFrom (3 * scope.fuel) [] .before cs

/-- A field of a record that is read into a state. -/
structure Field (ρ σ : Type) where
  name : String
  given : σ → Bool
  read : Scope → σ → List Char → Except (Fault ρ) (σ × List Char)
  optional : Bool

/-- The fields of an object in any order. A field given twice is a fault, an unknown one is passed.
-/
def fieldsOf (fields : List (Field ρ σ)) (scope : Scope) :
    (fuel : Nat) → Bool → σ → List Char → Except (Fault ρ) (σ × List Char)
  | 0, _, _, _ => .error .grammar
  | fuel + 1, first, state, cs => do
    match ← nextKey first cs with
    | none =>
      if fields.all fun f => f.given state || f.optional then return (state, ← closeObject cs)
      else throw .shape
    | some cs =>
      let (name, cs) ← textBody none [] cs
      match fields.find? (·.name = name) with
      | none => fieldsOf fields scope fuel false state (← skipValue scope (← colon cs))
      | some f =>
        if f.given state then throw .shape
        let (state, cs) ← f.read scope state (← colon cs)
        fieldsOf fields scope fuel false state cs

/-- The fields of an array, in their order. Only optional ones may be missing at its end. -/
def positionsOf (scope : Scope) :
    List (Field ρ σ) → Bool → σ → List Char → Except (Fault ρ) (σ × List Char)
  | [], _, state, cs => do return (state, ← closeArray cs)
  | f :: fs, first, state, cs => do
    match ← nextItem first cs with
    | none => if (f :: fs).all (·.optional) then return (state, ← closeArray cs) else throw .shape
    | some cs =>
      let (state, cs) ← f.read scope state cs
      positionsOf scope fs false state cs

/-- A record, as an object or as an array. -/
def readRecord (fields : List (Field ρ σ)) (scope : Scope) (init : σ) (cs : List Char) :
    Except (Fault ρ) (σ × List Char) :=
  match skipBlanks cs with
  | '\x7b' :: rest =>
    if scope.room = 0 then .error .grammar
    else fieldsOf fields scope.inner scope.fuel true init rest
  | '[' :: rest =>
    if scope.room = 0 then .error .grammar else positionsOf scope.inner fields true init rest
  | cs => .error (unexpected cs)

/-- The key of an object's only field. Nothing but a text can be one. -/
def readKey (cs : List Char) : Except (Fault ρ) (String × List Char) :=
  match skipBlanks cs with
  | [] => .error .ended
  | '\x22' :: rest => textBody none [] rest
  | _ => .error .grammar

/-- One of several named alternatives. By its name alone it stands as a string, with a payload as an
object of one field. -/
def readAlternative (scope : Scope) (known : String → Bool) (plain : String → Option α)
    (payload : String → Scope → List Char → Except (Fault ρ) (α × List Char)) (cs : List Char) :
    Except (Fault ρ) (α × List Char) :=
  match skipBlanks cs with
  | [] => .error .ended
  | '\x22' :: rest => do
    let (name, rest) ← textBody none [] rest
    match plain name with
    | some a => return (a, rest)
    | none => throw .shape
  | '\x7b' :: rest =>
    if scope.room = 0 then .error .grammar else do
      let (name, rest) ← readKey rest
      if !known name then throw .shape
      let (a, rest) ← payload name scope.inner (← colon rest)
      return (a, ← closeObject rest)
  | _ => .error .grammar

end DeviceTrial.Json
