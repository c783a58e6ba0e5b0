namespace DeviceTrial.CommandLine

structure OptionForm where
  letter : Char
  word : String
  takesValue : Bool
  deriving DecidableEq, Repr

structure Given where
  letter : Char
  value : Option String
  deriving DecidableEq, Repr

structure Arguments where
  given : List Given
  operands : List String
  /-- From the first operand on which the reading stopped. -/
  rest : List String
  deriving DecidableEq, Repr

namespace Arguments

def values (a : Arguments) (letter : Char) : List (Option String) :=
  (a.given.filter (·.letter = letter)).map (·.value)

end Arguments

/-- What a cluster of letters gives: options, and the option that still waits for a value. -/
def letters (forms : List OptionForm) : List Char → Option (List Given × Option Char)
  | [] => some ([], none)
  | c :: cs =>
    match forms.find? (·.letter = c) with
    | none => none
    | some form =>
      if form.takesValue then
        match cs with
        | [] => some ([], some c)
        | '=' :: value => some ([⟨c, some (String.ofList value)⟩], none)
        | value => some ([⟨c, some (String.ofList value)⟩], none)
      else (letters forms cs).map fun (given, waiting) => (⟨c, none⟩ :: given, waiting)

def longWord (forms : List OptionForm) (cs : List Char) : Option (List Given × Option Char) :=
  let name := String.ofList (cs.takeWhile (· ≠ '='))
  match forms.find? (·.word = name), cs.dropWhile (· ≠ '=') with
  | none, _ => none
  | some form, [] =>
    if form.takesValue then some ([], some form.letter) else some ([⟨form.letter, none⟩], none)
  | some form, _ :: value =>
    if form.takesValue then some ([⟨form.letter, some (String.ofList value)⟩], none) else none

/-- Reads arguments up to an operand that ends the reading. None where they are wrong: an unknown
option, a value for one that takes none, or no value for one that takes one. A value in an argument
of its own must not look like an option. -/
def readArguments (forms : List OptionForm) (stops : String → Bool) (given : List Given)
    (operands : List String) :
    (waiting : Option Char) → List String → Option Arguments
  | none, [] => some ⟨given, operands, []⟩
  | some _, [] => none
  | waiting, arg :: rest =>
    match arg.toList, waiting with
    | ['-', '-'], none => some ⟨given, operands ++ rest, []⟩
    | ['-', '-'], some _ => none
    | '-' :: c :: cs, none =>
      match if c = '-' then longWord forms cs else letters forms (c :: cs) with
      | none => none
      | some (more, waiting) => readArguments forms stops (given ++ more) operands waiting rest
    | '-' :: _ :: _, some _ => none
    | _, some letter => readArguments forms stops (given ++ [⟨letter, some arg⟩]) operands none rest
    | _, none =>
      if stops arg then some ⟨given, operands, arg :: rest⟩
      else readArguments forms stops given (operands ++ [arg]) none rest

end DeviceTrial.CommandLine
