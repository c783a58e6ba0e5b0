import DeviceTrial.Numeral
import DeviceTrial.Text.Visible

namespace DeviceTrial.Text

def codePointEscape (c : Char) : List Char :=
  ['\\', 'u', '\x7b'] ++ Nat.toDigits 16 c.toNat ++ ['\x7d']

def escaped (quote : Char) (c : Char) : List Char :=
  if c = quote then ['\\', c]
  else match c with
    | '\\' => ['\\', '\\']
    | '\t' => ['\\', 't']
    | '\n' => ['\\', 'n']
    | '\r' => ['\\', 'r']
    | '\x00' => ['\\', '0']
    | c => if isVisible c then [c] else codePointEscape c

/-- Visible characters stand for themselves. What has no short escape is written as its code point, in
braces. -/
def quoted (s : String) : String :=
  String.ofList ('\x22' :: s.toList.flatMap (escaped '\x22') ++ ['\x22'])

def quotedChar (c : Char) : String :=
  String.ofList ('\x27' :: escaped '\x27' c ++ ['\x27'])

end DeviceTrial.Text
