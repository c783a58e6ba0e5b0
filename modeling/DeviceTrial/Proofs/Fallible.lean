namespace DeviceTrial

variable {ε α β σ : Type}

theorem bind_eq_ok_iff {x : Except ε α} {f : α → Except ε β} {b : β} :
    x >>= f = .ok b ↔ ∃ a, x = .ok a ∧ f a = .ok b := by
  cases x with
  | error fault => simp [bind, Except.bind]
  | ok a => simp [bind, Except.bind]

/-- A state is looked at, changed and put back. -/
theorem change_eq_ok_iff {x : Except ε α} {change : α → Except ε α} {put : α → σ} {t : σ} :
    (do
      let a ← x
      let b ← change a
      return put b) = .ok t ↔ ∃ a b, x = .ok a ∧ change a = .ok b ∧ t = put b := by
  rw [bind_eq_ok_iff]
  refine exists_congr fun a => ?_
  constructor
  · rintro ⟨ha, h⟩
    obtain ⟨b, hb, hput⟩ := bind_eq_ok_iff.mp h
    cases hput
    exact ⟨b, ha, hb, rfl⟩
  · rintro ⟨b, ha, hb, rfl⟩
    exact ⟨ha, bind_eq_ok_iff.mpr ⟨b, hb, rfl⟩⟩

theorem toOption_eq_some_iff {x : Except ε α} {a : α} : x.toOption = some a ↔ x = .ok a := by
  cases x with
  | error fault => simp [Except.toOption]
  | ok b => simp [Except.toOption]

def fault? : Except ε α → Option ε
  | .ok _ => none
  | .error fault => some fault

theorem fault?_eq_some_iff {x : Except ε α} {fault : ε} :
    fault? x = some fault ↔ x = .error fault := by
  cases x <;> simp [fault?]

/-- What the second operation refuses it still refuses after the first. -/
def Spares (f g : σ → Except ε σ) : Prop :=
  ∀ s t fault, f s = .ok t → g s = .error fault → g t = .error fault

structure Separate (f g : σ → Except ε σ) : Prop where
  spares : Spares f g
  spared : Spares g f
  commute : ∀ s t u, f s = .ok t → g s = .ok u → ∃ v, g t = .ok v ∧ f u = .ok v

end DeviceTrial
