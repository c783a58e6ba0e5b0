namespace DeviceTrial

inductive FloatSize where
  | single
  | double
  deriving DecidableEq, Repr

namespace FloatSize

@[reducible] def bits : FloatSize → Nat
  | single => 32
  | double => 64

def bytes : FloatSize → Nat
  | single => 4
  | double => 8

def fractionBits : FloatSize → Nat
  | single => 23
  | double => 52

/-- The exponent field that marks infinities and values that are no numbers. -/
def topExponent : FloatSize → Nat
  | single => 255
  | double => 2047

/-- The exponent of the last place of the smallest positive values. -/
def leastExponent : FloatSize → Int
  | single => -149
  | double => -1074

/-- How many fractions there are, which is the leading digit of every larger mantissa. -/
def fractions (size : FloatSize) : Nat := 1 <<< size.fractionBits

def infinity (size : FloatSize) : Nat := size.topExponent * size.fractions

def signBit (size : FloatSize) : Nat := 1 <<< (size.bits - 1)

end FloatSize

/-- A finite value without its sign, `mantissa * 2 ^ exponent`. -/
structure Binary where
  mantissa : Nat
  exponent : Int
  /-- The gap to the next smaller value is half the gap to the next larger one. -/
  narrow : Bool
  deriving DecidableEq, Repr

inductive FloatValue where
  | notANumber
  | infinite (negative : Bool)
  | finite (negative : Bool) (magnitude : Binary)
  deriving DecidableEq, Repr

namespace FloatSize

/-- The magnitude that a pattern without sign denotes, below infinity. -/
def magnitude (size : FloatSize) (pattern : Nat) : Binary :=
  let fraction := pattern % size.fractions
  let field := pattern / size.fractions
  if field = 0 then ⟨fraction, size.leastExponent, false⟩
  else
    ⟨size.fractions + fraction, size.leastExponent + (field - 1 : Nat),
      fraction == 0 && field > 1⟩

def negative (size : FloatSize) (v : BitVec size.bits) : Bool := v.msb

def unsigned (size : FloatSize) (v : BitVec size.bits) : Nat := v.toNat % size.signBit

def value (size : FloatSize) (v : BitVec size.bits) : FloatValue :=
  let pattern := size.unsigned v
  if size.infinity < pattern then .notANumber
  else if pattern = size.infinity then .infinite (size.negative v)
  else .finite (size.negative v) (size.magnitude pattern)

/-- Equality of numbers: zeros of either sign are equal, and what is no number equals nothing. -/
def same (size : FloatSize) (v w : BitVec size.bits) : Bool :=
  match size.value v, size.value w with
  | .notANumber, _ => false
  | _, .notANumber => false
  | _, _ => v == w || (size.unsigned v == 0 && size.unsigned w == 0)

end FloatSize

/-- The natural nearest to a quotient, of two equally near the even one. -/
def nearestEven (num den : Nat) : Nat :=
  let q := num / den
  let r := num % den
  if 2 * r < den then q
  else if den < 2 * r then q + 1
  else if q % 2 = 0 then q else q + 1

/-- The exponent of the binary digit that leads a positive quotient. -/
def leadingExponent (num den : Nat) : Int :=
  let guess : Int := (num.log2 : Int) - den.log2
  if num <<< (-guess).toNat < den <<< guess.toNat then guess - 1 else guess

namespace FloatSize

/-- The pattern, without sign, nearest to a quotient of naturals. -/
def round (size : FloatSize) (num den : Nat) : Nat :=
  if num = 0 then 0
  else
    let last := max (leadingExponent num den - size.fractionBits) size.leastExponent
    let places := nearestEven (num <<< (-last).toNat) (den <<< last.toNat)
    min ((last - size.leastExponent).toNat * size.fractions + places) size.infinity

def signed (size : FloatSize) (negative : Bool) (pattern : Nat) : BitVec size.bits :=
  BitVec.ofNat _ (if negative then size.signBit + pattern else pattern)

def noNumber (size : FloatSize) : BitVec size.bits :=
  BitVec.ofNat _ (size.infinity + size.fractions / 2)

def convert (source target : FloatSize) (v : BitVec source.bits) : BitVec target.bits :=
  match source.value v with
  | .notANumber => target.noNumber
  | .infinite negative => target.signed negative target.infinity
  | .finite negative m =>
    target.signed negative
      (target.round (m.mantissa <<< m.exponent.toNat) (1 <<< (-m.exponent).toNat))

end FloatSize

end DeviceTrial
