import DeviceTrial.Json.Value

/-!
JSON numbers, read.

An integer of at most 64 bits is kept as it is. Every other number becomes a float: its first
digits, as many as 64 bits take, are rounded to a float, which is then multiplied or divided by a
rounded power of ten. Two roundings may leave the nearest float by one place; `scaleByTen` says
exactly what is computed.
-/

namespace DeviceTrial.Json

inductive Fault (ρ : Type) where
  | grammar
  | ended
  /-- The text is JSON of the wrong shape. -/
  | shape
  /-- The shape is right, and what it describes is refused. -/
  | refused (cause : ρ)
  deriving DecidableEq, Repr

/-- The pattern nearest to the product of the magnitudes of two patterns. -/
def product (x y : Nat) : Nat :=
  let a := FloatSize.double.magnitude x
  let b := FloatSize.double.magnitude y
  let e := a.exponent + b.exponent
  FloatSize.double.round ((a.mantissa * b.mantissa) <<< e.toNat) (1 <<< (-e).toNat)

def quotient (x y : Nat) : Nat :=
  let a := FloatSize.double.magnitude x
  let b := FloatSize.double.magnitude y
  let e := a.exponent - b.exponent
  FloatSize.double.round (a.mantissa <<< e.toNat) (b.mantissa <<< (-e).toNat)

def powerOfTen (n : Nat) : Nat := FloatSize.double.round (Numeral.tenTo n) 1

/-- The largest power of ten that is a finite float. -/
def largestPower : Nat := 308

/-- Divides by `10 ^ n`, by the largest power first and again until the rest is one step. -/
def divideByTen : (fuel : Nat) → Nat → Nat → Nat
  | 0, x, _ => x
  | fuel + 1, x, n =>
    if n ≤ largestPower then quotient x (powerOfTen n)
    else if x = 0 then 0
    else divideByTen fuel (quotient x (powerOfTen largestPower)) (n - largestPower)

/-- The float for `significand * 10 ^ exponent`, if it is finite. -/
def scaleByTen (significand : Nat) (exponent : Int) : Option Nat :=
  let x := FloatSize.double.round significand 1
  if exponent < 0 then
    let n := (-exponent).toNat
    some (divideByTen (n / largestPower + 1) x n)
  else if x = 0 then some 0
  else if largestPower < exponent.toNat then none
  else
    let y := product x (powerOfTen exponent.toNat)
    if y = FloatSize.double.infinity then none else some y

def startsWithDigit : List Char → Bool
  | c :: _ => Numeral.isDecimal c
  | [] => false

/-- Takes digits into a significand as long as it stays below `2 ^ 64`. Gives their count and what
follows. -/
def takeDigits (significand count : Nat) : List Char → Nat × Nat × List Char
  | [] => (significand, count, [])
  | c :: cs =>
    match Numeral.digit? 10 c with
    | none => (significand, count, c :: cs)
    | some d =>
      if significand * 10 + d < UInt64.size then takeDigits (significand * 10 + d) (count + 1) cs
      else (significand, count, c :: cs)

def skipDigits (count : Nat) : List Char → Nat × List Char
  | [] => (count, [])
  | c :: cs => if Numeral.isDecimal c then skipDigits (count + 1) cs else (count, c :: cs)

def naturalOf (acc : Nat) : List Char → Nat × List Char
  | [] => (acc, [])
  | c :: cs =>
    match Numeral.digit? 10 c with
    | some d => naturalOf (acc * 10 + d) cs
    | none => (acc, c :: cs)

variable {ρ : Type}

def floatOf (minus : Bool) (significand : Nat) (exponent : Int) : Except (Fault ρ) Json :=
  match scaleByTen significand exponent with
  | some pattern => .ok (.float (FloatSize.double.signed minus pattern))
  | none => .error .grammar

def withoutSign : List Char → Bool × List Char
  | '+' :: cs => (false, cs)
  | '-' :: cs => (true, cs)
  | cs => (false, cs)

def readExponent (minus : Bool) (significand : Nat) (start : Int) (cs : List Char) :
    Except (Fault ρ) (Json × List Char) :=
  let (down, cs) := withoutSign cs
  if cs.isEmpty then .error .ended
  else if !startsWithDigit cs then .error .grammar
  else
    let (n, rest) := naturalOf 0 cs
    (floatOf minus significand (if down then start - n else start + n)).map (·, rest)

/-- What may follow the digits of a number that is a float. -/
def finishFloat (minus : Bool) (significand : Nat) (exponent : Int) (cs : List Char) :
    Except (Fault ρ) (Json × List Char) :=
  match cs with
  | 'e' :: rest | 'E' :: rest => readExponent minus significand exponent rest
  | _ => (floatOf minus significand exponent).map (·, cs)

def readFraction (minus : Bool) (significand : Nat) (exponent : Int) (cs : List Char) :
    Except (Fault ρ) (Json × List Char) :=
  if cs.isEmpty then .error .ended
  else if !startsWithDigit cs then .error .grammar
  else
    let (significand, count, rest) := takeDigits significand 0 cs
    let (_, rest) := skipDigits 0 rest
    finishFloat minus significand (exponent - count) rest

/-- An integer, or a float where a sign stands before zero or the integer is too small. -/
def integerOf (minus : Bool) (significand : Nat) : Json :=
  if !minus then .ofNat significand
  else if 0 < significand ∧ significand ≤ UInt64.size / 2 then
    .negative (Int64.ofInt (-significand))
  else .float (FloatSize.double.signed true (FloatSize.double.round significand 1))

def readUnsigned (minus : Bool) (cs : List Char) : Except (Fault ρ) (Json × List Char) :=
  match cs with
  | [] => .error .ended
  | c :: tail =>
    if !Numeral.isDecimal c ∨ (c = '0' ∧ startsWithDigit tail) then .error .grammar
    else
      let (significand, _, rest) := takeDigits 0 0 cs
      let (dropped, rest) := skipDigits 0 rest
      match rest with
      | '.' :: after => readFraction minus significand dropped after
      | 'e' :: after | 'E' :: after => readExponent minus significand dropped after
      | _ =>
        if dropped = 0 then .ok (integerOf minus significand, rest)
        else (floatOf minus significand dropped).map (·, rest)

def readNumber (cs : List Char) : Except (Fault ρ) (Json × List Char) :=
  match cs with
  | '-' :: rest => readUnsigned true rest
  | _ => readUnsigned false cs

def skipExponent (cs : List Char) : Except (Fault ρ) (List Char) :=
  let (_, cs) := withoutSign cs
  if startsWithDigit cs then .ok (skipDigits 0 cs).2 else .error .grammar

/-- Passes a number after its sign, whatever its size. -/
def skipUnsigned (cs : List Char) : Except (Fault ρ) (List Char) :=
  match cs with
  | [] => .error .grammar
  | c :: tail =>
    if !Numeral.isDecimal c ∨ (c = '0' ∧ startsWithDigit tail) then .error .grammar
    else
      match (skipDigits 0 cs).2 with
      | '.' :: after =>
        if !startsWithDigit after then .error .grammar
        else match (skipDigits 0 after).2 with
          | 'e' :: rest | 'E' :: rest => skipExponent rest
          | rest => .ok rest
      | 'e' :: rest | 'E' :: rest => skipExponent rest
      | rest => .ok rest

end DeviceTrial.Json
