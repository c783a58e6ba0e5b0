import DeviceTrial.Text.Parts

namespace DeviceTrial.Text

variable {separator : Char} {p cs : List Char}

theorem parts_of_notMem (h : separator ∉ p) : parts separator p = [p] := by
  induction p with
  | nil => rfl
  | cons c p ih =>
    rw [List.mem_cons, not_or] at h
    rw [parts, if_neg (Ne.symm h.1), ih h.2]

theorem parts_append_cons (h : separator ∉ p) (cs : List Char) :
    parts separator (p ++ separator :: cs) = p :: parts separator cs := by
  induction p with
  | nil => exact if_pos rfl
  | cons c p ih =>
    rw [List.mem_cons, not_or] at h
    rw [List.cons_append, parts, if_neg (Ne.symm h.1), ih h.2]

theorem intercalate_parts (separator : Char) (cs : List Char) :
    [separator].intercalate (parts separator cs) = cs := by
  induction cs with
  | nil => rfl
  | cons c cs ih =>
    rw [parts]
    cases hparts : parts separator cs with
    | nil => exact absurd hparts (parts_ne_nil separator cs)
    | cons first rest =>
      rw [hparts] at ih
      split
      · next hc =>
        rw [← ih, hc]
        rfl
      · rw [← ih]
        cases rest <;> rfl

theorem parts_inj {ds : List Char} (h : parts separator cs = parts separator ds) : cs = ds := by
  rw [← intercalate_parts separator cs, h, intercalate_parts]

end DeviceTrial.Text
