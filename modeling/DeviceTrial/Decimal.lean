import DeviceTrial.Binary
import DeviceTrial.Numeral

/-!
Shortest decimals: the fewest digits that read back to a binary value.

`Binary.readsBack` is the specification, the interval of reals that round to the value.
`Binary.shortest` looks on ever finer decimal grids for a neighbour of the value inside it, and
takes the nearer of two.
-/

namespace DeviceTrial

/-- `digits * 10 ^ exponent`. -/
structure Decimal where
  digits : Nat
  exponent : Int
  deriving DecidableEq, Repr

/-- Which of two equally near decimals is written. -/
inductive Tie where
  | even
  | up
  deriving DecidableEq, Repr

/-- Compares `a * 10 ^ i` with `n * 2 ^ j`, exactly. -/
def compareScaled (a : Nat) (i : Int) (n : Nat) (j : Int) : Ordering :=
  compare ((a * Numeral.tenTo i.toNat) <<< (-j).toNat) ((n * Numeral.tenTo (-i).toNat) <<< j.toNat)

namespace Binary

/-- The decimal lies among the reals that round to the value. The ends belong to it where the
mantissa is even. -/
def readsBack (x : Binary) (d : Decimal) : Bool :=
  let low := if x.narrow then 4 * x.mantissa - 1 else 4 * x.mantissa - 2
  let high := 4 * x.mantissa + 2
  let closed := x.mantissa % 2 == 0
  let atLow := compareScaled d.digits d.exponent low (x.exponent - 2)
  let atHigh := compareScaled d.digits d.exponent high (x.exponent - 2)
  (atLow == .gt || (closed && atLow == .eq)) && (atHigh == .lt || (closed && atHigh == .eq))

/-- The least `k` with the value below `10 ^ k`, found upwards from a start. -/
def scaleFrom (x : Binary) : Nat → Int → Int
  | 0, k => k
  | fuel + 1, k =>
    if compareScaled 1 k x.mantissa x.exponent == .gt then k else scaleFrom x fuel (k + 1)

/-- A lower bound of the scale, from the leading binary digit. -/
def scaleGuess (x : Binary) : Int := ((x.mantissa.log2 : Int) + x.exponent) * 30103 / 100000 - 1

def scale (x : Binary) : Int := x.scaleFrom 4 x.scaleGuess

/-- The value in units of `10 ^ exponent`, rounded down. -/
def floorOn (x : Binary) (exponent : Int) : Nat :=
  (x.mantissa * Numeral.tenTo (-exponent).toNat) <<< x.exponent.toNat /
    Numeral.tenTo exponent.toNat <<< (-x.exponent).toNat

/-- The neighbour of the value on a decimal grid that reads back, if there is one. -/
def onGrid (tie : Tie) (x : Binary) (exponent : Int) : Option Decimal :=
  let below : Decimal := ⟨x.floorOn exponent, exponent⟩
  let above : Decimal := ⟨below.digits + 1, exponent⟩
  match x.readsBack below, x.readsBack above with
  | false, false => none
  | true, false => some below
  | false, true => some above
  | true, true =>
    match compareScaled (below.digits + above.digits) exponent (2 * x.mantissa) x.exponent, tie with
    | .gt, _ => some below
    | .lt, _ => some above
    | .eq, .up => some above
    | .eq, .even => some (if below.digits % 2 = 0 then below else above)

/-- The value itself as a decimal. -/
def exact (x : Binary) : Decimal :=
  if 0 ≤ x.exponent then ⟨x.mantissa <<< x.exponent.toNat, 0⟩
  else ⟨x.mantissa * Nat.pow 5 (-x.exponent).toNat, x.exponent⟩

end Binary

namespace Decimal

/-- Moves zeros at the end of the digits into the exponent. -/
def strip : Nat → Decimal → Decimal
  | 0, d => d
  | fuel + 1, d =>
    if d.digits % 10 = 0 ∧ d.digits ≠ 0 then strip fuel ⟨d.digits / 10, d.exponent + 1⟩ else d

end Decimal

namespace Binary

/-- The shortest decimal of a positive value. Seventeen digits are enough for both sizes. -/
def shortest (tie : Tie) (x : Binary) : Decimal :=
  let k := x.scale
  match (List.range 17).findSome? fun i => x.onGrid tie (k - (i + 1 : Nat)) with
  | some d => d.strip 17
  | none => x.exact

end Binary

namespace Decimal

def zeros (n : Nat) : List Char := List.replicate n '0'

/-- Positional notation; `whole` stands behind a number without fraction. -/
def positional (whole : String) (d : Decimal) : String :=
  let ds := Nat.toDigits 10 d.digits
  if 0 ≤ d.exponent then String.ofList (ds ++ zeros d.exponent.toNat) ++ whole
  else
    let places := (-d.exponent).toNat
    if places < ds.length then
      String.ofList (ds.take (ds.length - places) ++ '.' :: ds.drop (ds.length - places))
    else String.ofList ('0' :: '.' :: zeros (places - ds.length) ++ ds)

def leading (d : Decimal) : Int := d.exponent + (Nat.toDigits 10 d.digits).length - 1

/-- One digit, the others behind a point, and the exponent of the leading digit with its sign. -/
def scientific (d : Decimal) : String :=
  let e := d.leading
  let sign := if e < 0 then "-" else "+"
  let body := match Nat.toDigits 10 d.digits with
    | [] => []
    | [c] => [c]
    | c :: cs => c :: '.' :: cs
  String.ofList body ++ "e" ++ sign ++ Numeral.decimal e.natAbs

end Decimal

end DeviceTrial
