import DeviceTrial.Numeral

namespace DeviceTrial

inductive Toml where
  | bool (v : Bool)
  | integer (v : Int)
  | text (v : String)
  /-- A float. Its value is not kept. -/
  | float
  /-- A date or a time of day. Its value is not kept. -/
  | moment
  | array (items : List Toml)
  | table (fields : List (String × Toml))

namespace Toml

instance : Inhabited Toml := ⟨table []⟩

/-- A character that has to be escaped. The tab and the line feed do not count. -/
def isControl (c : Char) : Bool := (c.toNat < 0x20 && c != '\t' && c != '\n') || c == '\x7f'

/-- The length of the longest run of a character, of which `run` were just seen. -/
def longestRun (quote : Char) (run : Nat) : List Char → Nat
  | [] => run
  | c :: cs => if c = quote then longestRun quote (run + 1) cs else max run (longestRun quote 0 cs)

/-- The escape of a character. A line feed stands for itself in a text of many lines. -/
def escape (multiline : Bool) (c : Char) : List Char :=
  match c with
  | '\x08' => ['\\', 'b']
  | '\t' => ['\\', 't']
  | '\n' => if multiline then ['\n'] else ['\\', 'n']
  | '\x0c' => ['\\', 'f']
  | '\r' => ['\\', 'r']
  | '\\' => ['\\', '\\']
  | c => if isControl c then '\\' :: 'u' :: (Numeral.hexDigits 4 c.toNat).map Char.toUpper else [c]

/-- The inside of double quotes, where so many quotes in a row may stand for themselves. -/
def escapeAll (multiline : Bool) (limit : Nat) (run : Nat) : List Char → List Char
  | [] => []
  | c :: cs =>
    if c = '\x22' then
      if run < limit then c :: escapeAll multiline limit (run + 1) cs
      else '\\' :: c :: escapeAll multiline limit 0 cs
    else escape multiline c ++ escapeAll multiline limit 0 cs

inductive Quotes where
  | double
  | single
  | tripleDouble
  | tripleSingle
  deriving DecidableEq, Repr

def quotesFor (cs : List Char) : Quotes :=
  let controls := cs.any isControl
  let lines := cs.contains '\n'
  let double := longestRun '\x22' 0 cs
  let single := longestRun '\x27' 0 cs
  if !controls && !cs.contains '\\' && double = 0 && !lines then .double
  else if !controls && single = 0 && !lines then .single
  else if !controls && !cs.contains '\\' && double ≤ 2 then .tripleDouble
  else if !controls && single ≤ 2 then .tripleSingle
  else if lines then .tripleDouble
  else .double

/-- A text of many lines starts on a line of its own. -/
def opening (cs : List Char) : List Char := if cs.contains '\n' then ['\n'] else []

def quoteChars (cs : List Char) : List Char :=
  match quotesFor cs with
  | .double => ['\x22'] ++ escapeAll false 0 0 cs ++ ['\x22']
  | .single => ['\x27'] ++ cs ++ ['\x27']
  | .tripleDouble =>
    List.replicate 3 '\x22' ++ opening cs ++ escapeAll true 2 0 cs ++ List.replicate 3 '\x22'
  | .tripleSingle => List.replicate 3 '\x27' ++ opening cs ++ cs ++ List.replicate 3 '\x27'

def quote (s : String) : String := String.ofList (quoteChars s.toList)

end Toml

end DeviceTrial
