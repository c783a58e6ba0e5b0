import DeviceTrial.Envelope.Element
import DeviceTrial.LittleEndian

namespace DeviceTrial

inductive ScalarForm where
  | signed (size : WordSize)
  | unsigned (size : WordSize)
  | bool (v : Bool)
  | float (size : FloatSize)
  | text (size : WordSize)
  | bytes (size : WordSize)
  | null
  deriving DecidableEq, Repr

inductive Form where
  | scalar (form : ScalarForm)
  | container (shape : Shape)
  deriving DecidableEq, Repr

def WordSize.index : WordSize → Nat
  | one => 0
  | two => 1
  | four => 2
  | eight => 3

def WordSize.ofIndex : Nat → WordSize
  | 0 => one
  | 1 => two
  | 2 => four
  | _ => eight

namespace Form

def code : Form → Nat
  | scalar (.signed size) => size.index
  | scalar (.unsigned size) => 0x04 + size.index
  | scalar (.bool false) => 0x08
  | scalar (.bool true) => 0x09
  | scalar (.float .single) => 0x0A
  | scalar (.float .double) => 0x0B
  | scalar (.text size) => 0x0C + size.index
  | scalar (.bytes size) => 0x10 + size.index
  | scalar .null => 0x14
  | container .struct => 0x15
  | container .array => 0x16
  | container .list => 0x17

def ofCode? (code : Nat) : Option Form :=
  if code < 0x04 then some (scalar (.signed (.ofIndex code)))
  else if code < 0x08 then some (scalar (.unsigned (.ofIndex (code - 0x04))))
  else if code < 0x0A then some (scalar (.bool (code == 0x09)))
  else if code < 0x0C then some (scalar (.float (if code = 0x0A then .single else .double)))
  else if code < 0x10 then some (scalar (.text (.ofIndex (code - 0x0C))))
  else if code < 0x14 then some (scalar (.bytes (.ofIndex (code - 0x10))))
  else if code = 0x14 then some (scalar .null)
  else if code = 0x15 then some (container .struct)
  else if code = 0x16 then some (container .array)
  else if code = 0x17 then some (container .list)
  else none

theorem ofCode?_code (form : Form) : ofCode? form.code = some form := by
  cases form with
  | container shape => cases shape <;> rfl
  | scalar form =>
    cases form with
    | signed size | unsigned size | text size | bytes size => cases size <;> rfl
    | float size => cases size <;> rfl
    | bool v => cases v <;> rfl
    | null => rfl

theorem code_lt (form : Form) : form.code < 0x18 := by
  cases form with
  | container shape => cases shape <;> decide
  | scalar form =>
    cases form with
    | signed size | unsigned size | text size | bytes size => cases size <;> decide
    | float size => cases size <;> decide
    | bool v => cases v <;> decide
    | null => decide

theorem map_code_ofCode? : ∀ n < 0x18, (ofCode? n).map code = some n := by decide

theorem ofCode?_eq_none {n : Nat} (h : 0x18 ≤ n) : ofCode? n = none := by
  unfold ofCode?
  iterate 10 rw [if_neg (by omega)]

theorem ofCode?_eq_some_iff {n : Nat} {form : Form} : ofCode? n = some form ↔ form.code = n := by
  constructor
  · intro h
    have hn : n < 0x18 := by
      apply Nat.lt_of_not_le
      intro hge
      rw [ofCode?_eq_none hge] at h
      exact Option.some_ne_none form h.symm
    have hmap := map_code_ofCode? n hn
    rw [h] at hmap
    exact Option.some.inj hmap
  · rintro rfl
    exact ofCode?_code form

end Form

def Scalar.form : Scalar → ScalarForm
  | signed size _ => .signed size
  | unsigned size _ => .unsigned size
  | bool v => .bool v
  | float size _ => .float size
  | text size .. => .text size
  | bytes size .. => .bytes size
  | null => .null

/-- The byte that closes a container. -/
def endMark : UInt8 := 0x18

/-- The forms of a tag. The numbers of profile tags have a short form of two bytes and a long one of
four. -/
inductive TagForm where
  | anonymous
  | context
  | common (long : Bool)
  | implicit (long : Bool)
  | qualified (long : Bool)
  deriving DecidableEq, Repr

namespace TagForm

def code : TagForm → Nat
  | anonymous => 0
  | context => 1
  | common long => 2 + long.toNat
  | implicit long => 4 + long.toNat
  | qualified long => 6 + long.toNat

def ofCode : Nat → TagForm
  | 0 => anonymous
  | 1 => context
  | 2 => common false
  | 3 => common true
  | 4 => implicit false
  | 5 => implicit true
  | 6 => qualified false
  | _ => qualified true

theorem ofCode_code (form : TagForm) : ofCode form.code = form := by
  cases form with
  | anonymous | context => rfl
  | common long | implicit long | qualified long => cases long <;> rfl

theorem code_lt (form : TagForm) : form.code < 8 := by
  cases form with
  | anonymous | context => decide
  | common long | implicit long | qualified long => cases long <;> decide

theorem code_ofCode : ∀ n < 8, (ofCode n).code = n := by decide

def numberWidth (long : Bool) : Nat := if long then 4 else 2

end TagForm

/-- A number beyond two bytes takes the long form. -/
def isLong (number : UInt32) : Bool := decide (65535 < number.toNat)

namespace Tag

def form : Tag → TagForm
  | anonymous => .anonymous
  | context _ => .context
  | common n => .common (isLong n)
  | implicit n => .implicit (isLong n)
  | qualified _ _ n => .qualified (isLong n)

/-- The bytes of a tag, with its number in the given form. -/
def bytes (long : Bool) : Tag → List UInt8
  | anonymous => []
  | context n => [n]
  | common n | implicit n => littleEndian (TagForm.numberWidth long) n.toNat
  | qualified vendor profile n =>
    littleEndian 2 vendor.toNat ++ littleEndian 2 profile.toNat ++
      littleEndian (TagForm.numberWidth long) n.toNat

def long : Tag → Bool
  | common n | implicit n | qualified _ _ n => isLong n
  | anonymous | context _ => false

end Tag

/-- The control byte of a tag form and what follows. -/
def control (tag : TagForm) (form : Form) : UInt8 := UInt8.ofNat (tag.code * 32 + form.code)

theorem toNat_control (tag : TagForm) (form : Form) :
    (control tag form).toNat = tag.code * 32 + form.code := by
  have := tag.code_lt
  have := form.code_lt
  exact UInt8.toNat_ofNat_of_lt (by change _ < 256; omega)

/-- No element starts with the byte that closes a container. -/
theorem control_ne_endMark (tag : TagForm) (form : Form) : control tag form ≠ endMark := by
  intro h
  have hn := congrArg UInt8.toNat h
  rw [toNat_control, show endMark.toNat = 0x18 from rfl] at hn
  have := form.code_lt
  omega

end DeviceTrial
