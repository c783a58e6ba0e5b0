import DeviceTrial.Toml.Value

namespace DeviceTrial.Toml

def isBlank (c : Char) : Bool := c = ' ' || c = '\t'

def skipBlanks (cs : List Char) : List Char := cs.dropWhile isBlank

def newline? : List Char → Option (List Char)
  | '\n' :: rest | '\r' :: '\n' :: rest => some rest
  | _ => none

/-- A character that may stand for itself in texts and comments. -/
def isPlain (c : Char) : Bool := c = '\t' || (decide (0x20 ≤ c.toNat) && c != '\x7f')

def escapeOf : Char → Option Char
  | 'b' => some '\x08'
  | 't' => some '\t'
  | 'n' => some '\n'
  | 'f' => some '\x0c'
  | 'r' => some '\r'
  | '\x22' => some '\x22'
  | '\\' => some '\\'
  | _ => none

def codePoint (digits : List Char) : Option Char :=
  (Numeral.readFrom 16 0 digits).bind fun n => if n.isValidChar then some (Char.ofNat n) else none

def basicText (acc : List Char) : List Char → Option (List Char × List Char)
  | [] => none
  | '\\' :: 'u' :: a :: b :: c :: d :: rest =>
    match codePoint [a, b, c, d] with
    | some x => basicText (x :: acc) rest
    | none => none
  | '\\' :: 'U' :: a :: b :: c :: d :: e :: f :: g :: h :: rest =>
    match codePoint [a, b, c, d, e, f, g, h] with
    | some x => basicText (x :: acc) rest
    | none => none
  | '\\' :: c :: rest =>
    match escapeOf c with
    | some x => basicText (x :: acc) rest
    | none => none
  | c :: rest =>
    if c = '\x22' then some (acc.reverse, rest)
    else if isPlain c && c != '\\' then basicText (c :: acc) rest
    else none

def literalText (acc : List Char) : List Char → Option (List Char × List Char)
  | [] => none
  | c :: rest =>
    if c = '\x27' then some (acc.reverse, rest)
    else if isPlain c then literalText (c :: acc) rest
    else none

/-- What follows three closing quotes: up to two more of them belong to the text before. -/
def closing (quote : Char) (acc : List Char) : List Char → List Char × List Char
  | a :: b :: rest =>
    if a = quote then
      if b = quote then ((quote :: quote :: acc).reverse, rest)
      else ((quote :: acc).reverse, b :: rest)
    else (acc.reverse, a :: b :: rest)
  | [a] => if a = quote then ((quote :: acc).reverse, []) else (acc.reverse, [a])
  | [] => (acc.reverse, [])

/-- Where a text of many lines stands: within it, or in a gap that a backslash opened, before or
behind its line end. -/
inductive Gap where
  | outside
  | before
  | behind
  deriving DecidableEq, Repr

/-- A text in tripled double quotes. A backslash before the end of a line leaves out all blanks up
to the next word. -/
def longBasicText (gap : Gap) (acc : List Char) : List Char → Option (List Char × List Char)
  | [] => none
  | '\x22' :: '\x22' :: '\x22' :: rest =>
    if gap = .before then none else some (closing '\x22' acc rest)
  | '\r' :: '\n' :: rest =>
    if gap = .outside then longBasicText .outside ('\n' :: acc) rest
    else longBasicText .behind acc rest
  | '\n' :: rest =>
    if gap = .outside then longBasicText .outside ('\n' :: acc) rest
    else longBasicText .behind acc rest
  | '\\' :: 'u' :: a :: b :: c :: d :: rest =>
    if gap = .before then none
    else match codePoint [a, b, c, d] with
      | some x => longBasicText .outside (x :: acc) rest
      | none => none
  | '\\' :: 'U' :: a :: b :: c :: d :: e :: f :: g :: h :: rest =>
    if gap = .before then none
    else match codePoint [a, b, c, d, e, f, g, h] with
      | some x => longBasicText .outside (x :: acc) rest
      | none => none
  | '\\' :: '\r' :: '\n' :: rest => if gap = .before then none else longBasicText .behind acc rest
  | '\\' :: c :: rest =>
    if gap = .before then none
    else if c = '\n' then longBasicText .behind acc rest
    else if isBlank c then longBasicText .before acc rest
    else match escapeOf c with
      | some x => longBasicText .outside (x :: acc) rest
      | none => none
  | c :: rest =>
    if gap ≠ .outside ∧ isBlank c then longBasicText gap acc rest
    else if gap ≠ .before ∧ isPlain c ∧ c ≠ '\\' then longBasicText .outside (c :: acc) rest
    else none

def longLiteralText (acc : List Char) : List Char → Option (List Char × List Char)
  | [] => none
  | '\x27' :: '\x27' :: '\x27' :: rest => some (closing '\x27' acc rest)
  | '\r' :: '\n' :: rest => longLiteralText ('\n' :: acc) rest
  | c :: rest => if c = '\n' ∨ isPlain c then longLiteralText (c :: acc) rest else none

/-- A line end right behind tripled quotes is no part of the text. -/
def withoutFirstLine (cs : List Char) : List Char := (newline? cs).getD cs

def readText (cs : List Char) : Option (List Char × List Char) :=
  match cs with
  | '\x22' :: '\x22' :: '\x22' :: rest => longBasicText .outside [] (withoutFirstLine rest)
  | '\x27' :: '\x27' :: '\x27' :: rest => longLiteralText [] (withoutFirstLine rest)
  | '\x22' :: rest => basicText [] rest
  | '\x27' :: rest => literalText [] rest
  | _ => none

end DeviceTrial.Toml
