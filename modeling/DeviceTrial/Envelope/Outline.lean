import DeviceTrial.Decimal
import DeviceTrial.Envelope.Element
import DeviceTrial.Hex
import DeviceTrial.Text.Quoted

namespace DeviceTrial

def Tag.describe : Tag → String
  | anonymous => "anonymous"
  | context n => "context " ++ Numeral.decimal n.toNat
  | common n => "common " ++ Numeral.marked 1 n.toNat
  | implicit n => "implicit " ++ Numeral.marked 1 n.toNat
  | qualified vendor profile n =>
    Numeral.marked 4 vendor.toNat ++ ":" ++ Numeral.marked 4 profile.toNat ++ ":" ++
      Numeral.marked 1 n.toNat

/-- A float in positional notation, with the fewest digits that tell it apart in its own size. -/
def FloatSize.plain (size : FloatSize) (v : BitVec size.bits) : String :=
  match size.value v with
  | .notANumber => "NaN"
  | .infinite negative => if negative then "-inf" else "inf"
  | .finite negative m =>
    let sign := if negative then "-" else ""
    if m.mantissa = 0 then sign ++ "0" else sign ++ (m.shortest .up).positional ""

def Scalar.show : Scalar → String
  | .bool v => if v then "true" else "false"
  | .signed _ v => Numeral.integer v.toInt
  | .unsigned _ v => Numeral.decimal v.toNat
  | .float size v => size.plain v
  | .text _ v _ => Text.quoted v
  | .bytes _ v _ => "0x" ++ Hex.encode v
  | .null => "null"

namespace Element

def blanks (n : Nat) : String := String.ofList (List.replicate n ' ')

def caption (e : Element) (indent : Nat) : String :=
  blanks indent ++ "[" ++ e.describe ++ ", tag: " ++ e.tag.describe ++ "] = "

mutual
/-- The lines of an element: one, or those of its children between a line that opens and one that
closes. -/
def linesAt (indent : Nat) : Element → List String
  | leaf t s => [caption (leaf t s) indent ++ s.show]
  | node t shape [] => [caption (node t shape []) indent ++ "\x7b\x7d"]
  | node t shape (e :: es) =>
    (caption (node t shape []) indent ++ "\x7b") ::
      (linesAt (indent + 2) e ++ (linesOfAll (indent + 2) es ++ [blanks indent ++ "\x7d"]))

def linesOfAll (indent : Nat) : List Element → List String
  | [] => []
  | e :: es => linesAt indent e ++ linesOfAll indent es
end

def outline (e : Element) : String := "\n".intercalate (linesAt 0 e)

end Element

end DeviceTrial
