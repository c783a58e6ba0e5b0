namespace DeviceTrial

inductive Severity where
  | debug
  | info
  | warn
  | error
  deriving DecidableEq, Repr

def Severity.describe : Severity → String
  | debug => "DEBUG"
  | info => "INFO"
  | warn => "WARN"
  | error => "ERROR"

structure LogLine where
  severity : Severity
  message : String
  fields : List (String × String)
  deriving DecidableEq, Repr

def LogLine.render (l : LogLine) : String :=
  l.severity.describe ++ " " ++ l.message ++
    String.join (l.fields.map fun f => " " ++ f.1 ++ "=" ++ f.2)

/-- A value and what was told before it was known. -/
structure Told (α : Type) where
  value : α
  lines : List LogLine

namespace Told

variable {α β : Type}

instance : Monad Told where
  pure a := ⟨a, []⟩
  bind x f := ⟨(f x.value).value, x.lines ++ (f x.value).lines⟩

@[simp] theorem value_pure (a : α) : (pure a : Told α).value = a := rfl

@[simp] theorem value_bind (x : Told α) (f : α → Told β) :
    (x >>= f).value = (f x.value).value := rfl

@[simp] theorem lines_pure (a : α) : (pure a : Told α).lines = [] := rfl

@[simp] theorem lines_bind (x : Told α) (f : α → Told β) :
    (x >>= f).lines = x.lines ++ (f x.value).lines := rfl

/-- What is told keeps its order, however the steps are grouped. -/
instance : LawfulMonad Told :=
  .mk' Told
    (fun x => congrArg (Told.mk x.value) (List.append_nil x.lines))
    (fun _ _ => rfl)
    (fun _ _ _ => congrArg (Told.mk _) (List.append_assoc ..))

end Told

def tell (severity : Severity) (message : String) (fields : List (String × String)) : Told Unit :=
  ⟨(), [⟨severity, message, fields⟩]⟩

@[simp] theorem value_tell (severity : Severity) (message : String)
    (fields : List (String × String)) :
    (tell severity message fields).value = () := rfl

end DeviceTrial
