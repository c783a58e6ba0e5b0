import DeviceTrial.Numeral

namespace DeviceTrial.Timestamp

def digits : (count : Nat) → Nat → List Char → Option (Nat × List Char)
  | 0, acc, cs => some (acc, cs)
  | count + 1, acc, c :: cs => do digits count (acc * 10 + (← Numeral.digit? 10 c)) cs
  | _ + 1, _, [] => none

def mark (allowed : List Char) : List Char → Option (List Char)
  | c :: cs => if allowed.contains c then some cs else none
  | [] => none

def isLeap (year : Nat) : Bool := year % 4 == 0 && (year % 100 != 0 || year % 400 == 0)

def daysIn (year month : Nat) : Nat :=
  match month with
  | 2 => if isLeap year then 29 else 28
  | 4 | 6 | 9 | 11 => 30
  | _ => 31

def date (cs : List Char) : Option (List Char) := do
  let (year, cs) ← digits 4 0 cs
  let (month, cs) ← digits 2 0 (← mark ['-'] cs)
  let (day, cs) ← digits 2 0 (← mark ['-'] cs)
  if 1 ≤ month ∧ month ≤ 12 ∧ 1 ≤ day ∧ day ≤ daysIn year month then some cs else none

def fraction (cs : List Char) : Option (List Char) :=
  match cs with
  | '.' :: rest => do
    let (_, rest) ← digits 1 0 rest
    return rest.dropWhile Numeral.isDecimal
  | _ => some cs

def time (cs : List Char) : Option (List Char) := do
  let (hour, cs) ← digits 2 0 cs
  let (minute, cs) ← digits 2 0 (← mark [':'] cs)
  let (second, cs) ← digits 2 0 (← mark [':'] cs)
  if hour ≤ 23 ∧ minute ≤ 59 ∧ second ≤ 60 then fraction cs else none

def offset (signs : List Char) (cs : List Char) : Option (List Char) :=
  match cs with
  | 'Z' :: rest | 'z' :: rest => some rest
  | _ => do
    let (hours, cs) ← digits 2 0 (← mark signs cs)
    let (minutes, cs) ← digits 2 0 (← mark [':'] cs)
    if hours ≤ 23 ∧ minutes ≤ 59 then some cs else none

def separators : List Char := ['T', 't', ' ']

/-- The minus of an offset may be the hyphen or the sign of mathematics. -/
def isValid (text : String) : Bool :=
  let rest := do
    let cs ← date text.toList
    let cs ← time (← mark separators cs)
    offset ['+', '-', '\u2212'] cs
  rest = some []

end DeviceTrial.Timestamp
