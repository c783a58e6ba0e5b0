import DeviceTrial.Numeral

namespace DeviceTrial.Hex

inductive Fault where
  | oddLength
  /-- The byte, taken as a character of its own, and its index. -/
  | notDigit (byte : UInt8) (index : Nat)
  deriving DecidableEq, Repr

def pair (b : UInt8) : List Char :=
  [Nat.digitChar (b.toNat / 16), Nat.digitChar (b.toNat % 16)]

def encode (bytes : List UInt8) : String := String.ofList (bytes.flatMap pair)

def nibble (b : UInt8) (index : Nat) : Except Fault Nat :=
  match Numeral.digit? 16 (Char.ofNat b.toNat) with
  | some d => .ok d
  | none => .error (.notDigit b index)

def decodePairs : Nat → List UInt8 → List UInt8 → Except Fault (List UInt8)
  | index, acc, high :: low :: rest => do
    let h ← nibble high index
    let l ← nibble low (index + 1)
    decodePairs (index + 2) (UInt8.ofNat (h * 16 + l) :: acc) rest
  | _, acc, _ => .ok acc.reverse

/-- Takes either case. An odd count of bytes is told before any of them that is no digit. -/
def decode (text : String) : Except Fault (List UInt8) :=
  let bytes := text.toUTF8.toList
  if bytes.length % 2 = 1 then .error .oddLength else decodePairs 0 [] bytes

end DeviceTrial.Hex
