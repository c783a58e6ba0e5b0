import DeviceTrial.Envelope.Element
import DeviceTrial.Hex
import DeviceTrial.Text.Quoted

namespace DeviceTrial

namespace Hex.Fault

def message : Fault → String
  | oddLength => "Odd number of digits"
  | notDigit byte index =>
    s!"Invalid character {Text.quotedChar (Char.ofNat byte.toNat)} at position {index}"

end Hex.Fault

/-- A description that names no value of its kind. -/
inductive DescriptionFault where
  | outOfRange (kind : Kind) (width : Nat)
  | notHex (text : String) (fault : Hex.Fault)
  deriving DecidableEq, Repr

def DescriptionFault.message : DescriptionFault → String
  | outOfRange kind width => "value out of range for " ++ kind.describe width
  | notHex text fault => "byte string " ++ Text.quoted text ++ ": " ++ fault.message

inductive EnvelopeFault where
  | unexpectedEnd (offset : Nat)
  | unsupportedControl (control : UInt8) (offset : Nat)
  | strayEndMark (offset : Nat)
  | unterminated (offset : Nat)
  | invalidText (offset : Nat)
  | tooDeep (limit : Nat)
  | trailing (remaining : Nat)
  | unsupportedType (kind : Kind) (width : Nat)
  | typeMismatch (kind : Kind) (width : Nat)
  | notContainer (kind : Kind)
  | malformed (fault : DescriptionFault)
  deriving DecidableEq, Repr

namespace EnvelopeFault

def message : EnvelopeFault → String
  | unexpectedEnd offset => s!"Unexpected end of input at offset {offset}"
  | unsupportedControl control offset =>
    s!"Unsupported control byte {Numeral.marked 2 control.toNat} at offset {offset}"
  | strayEndMark offset => s!"End-of-container marker outside of any container at offset {offset}"
  | unterminated offset => s!"Container opened before offset {offset} was never closed"
  | invalidText offset => s!"Invalid UTF-8 string at offset {offset}"
  | tooDeep limit => s!"Container nesting exceeds the maximum depth of {limit}"
  | trailing remaining => s!"{remaining} trailing bytes after the envelope"
  | unsupportedType kind width => s!"Unsupported element kind {kind.label} with width {width}"
  | typeMismatch kind width =>
    s!"Content does not match declared kind {kind.label} with width {width}"
  | notContainer kind => s!"Element of kind {kind.label} cannot hold children"
  | malformed fault => "Malformed element description: " ++ fault.message

end EnvelopeFault

end DeviceTrial
