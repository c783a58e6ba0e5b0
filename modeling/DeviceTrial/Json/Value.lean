import DeviceTrial.Decimal

namespace DeviceTrial

inductive Json where
  | null
  | bool (v : Bool)
  | natural (v : UInt64)
  | negative (v : Int64)
  | float (v : BitVec 64)
  | text (v : String)
  | array (items : List Json)
  | object (fields : List (String × Json))

namespace Json

instance : Inhabited Json := ⟨null⟩

def ofNat (n : Nat) : Json := natural (UInt64.ofNat n)

def integer (n : Int) : Json := if 0 ≤ n then ofNat n.toNat else negative (Int64.ofInt n)

/-- Floats are written with the fewest digits that read back, of two candidates the nearer and at a
tie the even one: positionally where the leading digit stands between the fifth place behind the
point and the sixteenth before it. -/
def floatText (v : BitVec 64) : String :=
  match FloatSize.double.value v with
  | .notANumber | .infinite _ => "null"
  | .finite minus m =>
    let sign := if minus then "-" else ""
    if m.mantissa = 0 then sign ++ "0.0"
    else
      let d := m.shortest .even
      sign ++ if -5 ≤ d.leading ∧ d.leading ≤ 15 then d.positional ".0" else d.scientific

/-- A character inside a string. Only quotes, backslashes and control characters are escaped. -/
def escaped (c : Char) : List Char :=
  match c with
  | '\x22' => ['\\', '\x22']
  | '\\' => ['\\', '\\']
  | '\x08' => ['\\', 'b']
  | '\x0c' => ['\\', 'f']
  | '\n' => ['\\', 'n']
  | '\r' => ['\\', 'r']
  | '\t' => ['\\', 't']
  | c => if c.toNat < 0x20 then ['\\', 'u'] ++ Numeral.hexDigits 4 c.toNat else [c]

def textChars (s : String) : List Char := '\x22' :: s.toList.flatMap escaped ++ ['\x22']

def numberChars (n : Int) : List Char :=
  if n < 0 then '-' :: Nat.toDigits 10 n.natAbs else Nat.toDigits 10 n.natAbs

def floatChars (v : BitVec 64) : List Char := (floatText v).toList

mutual
def compactChars : Json → List Char
  | null => ['n', 'u', 'l', 'l']
  | bool true => ['t', 'r', 'u', 'e']
  | bool false => ['f', 'a', 'l', 's', 'e']
  | natural v => numberChars v.toNat
  | negative v => numberChars v.toInt
  | float v => floatChars v
  | text v => textChars v
  | array [] => ['[', ']']
  | array (x :: xs) => '[' :: (compactChars x ++ compactItems xs)
  | object [] => ['\x7b', '\x7d']
  | object (f :: fs) => '\x7b' :: (compactField f ++ compactFields fs)

def compactItems : List Json → List Char
  | [] => [']']
  | x :: xs => ',' :: (compactChars x ++ compactItems xs)

def compactFields : List (String × Json) → List Char
  | [] => ['\x7d']
  | f :: fs => ',' :: (compactField f ++ compactFields fs)

def compactField : String × Json → List Char
  | (k, v) => textChars k ++ ':' :: compactChars v
end

def compact (j : Json) : String := String.ofList (compactChars j)

def newLine (indent : Nat) : List Char := '\n' :: List.replicate indent ' '

mutual
def prettyChars (indent : Nat) : Json → List Char
  | null => ['n', 'u', 'l', 'l']
  | bool true => ['t', 'r', 'u', 'e']
  | bool false => ['f', 'a', 'l', 's', 'e']
  | natural v => numberChars v.toNat
  | negative v => numberChars v.toInt
  | float v => floatChars v
  | text v => textChars v
  | array [] => ['[', ']']
  | array (x :: xs) =>
    '[' :: (newLine (indent + 2) ++ (prettyChars (indent + 2) x ++ prettyItems indent xs))
  | object [] => ['\x7b', '\x7d']
  | object (f :: fs) =>
    '\x7b' :: (newLine (indent + 2) ++ (prettyField (indent + 2) f ++ prettyFields indent fs))

def prettyItems (indent : Nat) : List Json → List Char
  | [] => newLine indent ++ [']']
  | x :: xs =>
    ',' :: (newLine (indent + 2) ++ (prettyChars (indent + 2) x ++ prettyItems indent xs))

def prettyFields (indent : Nat) : List (String × Json) → List Char
  | [] => newLine indent ++ ['\x7d']
  | f :: fs =>
    ',' :: (newLine (indent + 2) ++ (prettyField (indent + 2) f ++ prettyFields indent fs))

def prettyField (indent : Nat) : String × Json → List Char
  | (k, v) => textChars k ++ ':' :: ' ' :: prettyChars indent v
end

def pretty (j : Json) : String := String.ofList (prettyChars 0 j)

end Json

end DeviceTrial
