import DeviceTrial.Binary
import DeviceTrial.Timestamp
import DeviceTrial.Toml.Value

namespace DeviceTrial.Toml

/-- Digits of a base behind a first one, in each place after an underscore or not. -/
def moreDigits (base : Nat) (acc : List Char) : List Char → List Char × List Char
  | '_' :: c :: rest =>
    if (Numeral.digit? base c).isSome then moreDigits base (c :: acc) rest
    else (acc.reverse, '_' :: c :: rest)
  | c :: rest =>
    if (Numeral.digit? base c).isSome then moreDigits base (c :: acc) rest
    else (acc.reverse, c :: rest)
  | [] => (acc.reverse, [])

def someDigits (base : Nat) : List Char → Option (List Char × List Char)
  | c :: rest => if (Numeral.digit? base c).isSome then some (moreDigits base [c] rest) else none
  | [] => none

/-- The digits of a decimal integer. A zero stands alone. -/
def wholeDigits : List Char → Option (List Char × List Char)
  | '0' :: rest => some (['0'], rest)
  | cs => someDigits 10 cs

def sign : List Char → Bool × List Char
  | '-' :: rest => (true, rest)
  | '+' :: rest => (false, rest)
  | cs => (false, cs)

def naturalOf (base : Nat) (digits : List Char) : Nat := (Numeral.readFrom base 0 digits).getD 0

def bounded (n : Int) (rest : List Char) : Option (Toml × List Char) :=
  if Int64.minValue.toInt ≤ n ∧ n ≤ Int64.maxValue.toInt then some (.integer n, rest) else none

def markedInteger (base : Nat) (cs : List Char) : Option (Toml × List Char) := do
  let (digits, rest) ← someDigits base cs
  bounded (naturalOf base digits) rest

def readInteger (cs : List Char) : Option (Toml × List Char) :=
  match cs with
  | '0' :: 'x' :: rest => markedInteger 16 rest
  | '0' :: 'o' :: rest => markedInteger 8 rest
  | '0' :: 'b' :: rest => markedInteger 2 rest
  | _ => do
    let (minus, cs) := sign cs
    let (digits, rest) ← wholeDigits cs
    let n := naturalOf 10 digits
    bounded (if minus then -n else n) rest

def exponent? (cs : List Char) : Option (Int × List Char) :=
  match cs with
  | 'e' :: rest | 'E' :: rest => do
    let (minus, rest) := sign rest
    let (digits, rest) ← someDigits 10 rest
    let n := naturalOf 10 digits
    return (if minus then -n else n, rest)
  | _ => none

def fraction? (cs : List Char) : Option (List Char × List Char) :=
  match cs with
  | '.' :: rest => someDigits 10 rest
  | _ => none

/-- The digits with their exponent are beyond the largest float. -/
def isHuge (digits : List Char) (exponent : Int) : Bool :=
  let n := naturalOf 10 digits
  let leading := digits.length + exponent
  if n = 0 ∨ leading < 0 then false
  else if 400 + digits.length < leading then true
  else
    FloatSize.double.round (n * Numeral.tenTo exponent.toNat) (Numeral.tenTo (-exponent).toNat) ==
      FloatSize.double.infinity

def readSpecial (cs : List Char) : Option (Toml × List Char) :=
  match (sign cs).2 with
  | 'i' :: 'n' :: 'f' :: rest | 'n' :: 'a' :: 'n' :: rest => some (.float, rest)
  | _ => none

/-- A float: digits with a fraction, an exponent, or both. -/
def readFloat (cs : List Char) : Option (Toml × List Char) :=
  let (minus, cs) := sign cs
  let made (digits : List Char) (exponent : Int) (rest : List Char) : Option (Toml × List Char) :=
    if !minus && isHuge digits exponent then none else some (.float, rest)
  match wholeDigits cs with
  | none => none
  | some (whole, rest) =>
    match fraction? rest with
    | some (places, rest) =>
      let (e, rest) := (exponent? rest).getD (0, rest)
      made (whole ++ places) (e - places.length) rest
    | none =>
      match exponent? rest with
      | some (e, rest) => made whole e rest
      | none => none

/-- A date with or without a time of day, or a time of day alone. -/
def readMoment (cs : List Char) : Option (Toml × List Char) :=
  match Timestamp.date cs with
  | none => (Timestamp.time cs).map (.moment, ·)
  | some day =>
    match (Timestamp.mark Timestamp.separators day).bind Timestamp.time with
    | none => some (.moment, day)
    | some time => some (.moment, (Timestamp.offset ['+', '-'] time).getD time)

def readNumber (cs : List Char) : Option (Toml × List Char) :=
  (readMoment cs).or <| (readFloat cs).or <| (readSpecial cs).or (readInteger cs)

end DeviceTrial.Toml
