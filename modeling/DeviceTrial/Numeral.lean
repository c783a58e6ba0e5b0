namespace DeviceTrial.Numeral

def digitValue? (c : Char) : Option Nat :=
  if '0' ≤ c ∧ c ≤ '9' then some (c.toNat - 48)
  else if 'a' ≤ c ∧ c ≤ 'f' then some (c.toNat - 87)
  else if 'A' ≤ c ∧ c ≤ 'F' then some (c.toNat - 55)
  else none

def digit? (base : Nat) (c : Char) : Option Nat := (digitValue? c).filter (· < base)

def isDecimal (c : Char) : Bool := (digit? 10 c).isSome

/-- The value of a run of digits read after a value. -/
def readFrom (base : Nat) : Nat → List Char → Option Nat
  | acc, [] => some acc
  | acc, c :: cs => match digit? base c with
    | some d => readFrom base (acc * base + d) cs
    | none => none

def read? (base : Nat) (cs : List Char) : Option Nat :=
  if cs.isEmpty then none else readFrom base 0 cs

def tenTo (zeros : Nat) : Nat := Nat.pow 10 zeros

def decimal (n : Nat) : String := String.ofList (Nat.toDigits 10 n)

def integer (n : Int) : String :=
  if n < 0 then "-" ++ decimal n.natAbs else decimal n.natAbs

/-- Hexadecimal digits, filled up with zeros to a least width. -/
def hexDigits (width n : Nat) : List Char :=
  let ds := Nat.toDigits 16 n
  List.replicate (width - ds.length) '0' ++ ds

def hex (width n : Nat) : String := String.ofList (hexDigits width n)

def marked (width n : Nat) : String := "0x" ++ hex width n

end DeviceTrial.Numeral
