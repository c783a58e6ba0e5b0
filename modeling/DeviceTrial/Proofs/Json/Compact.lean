import DeviceTrial.Proofs.Json.Takes

namespace DeviceTrial.Json

variable {ρ σ : Type}

/-- The value is written in compact form at every indent. -/
def IsPlain (j : Json) : Prop := ∀ indent, prettyChars indent j = compactChars j

theorem isPlain_text (s : String) : IsPlain (.text s) := fun _ => rfl

theorem isPlain_ofNat (n : Nat) : IsPlain (.ofNat n) := fun _ => rfl

theorem isPlain_float (v : BitVec 64) : IsPlain (.float v) := fun _ => rfl

/-- What stands behind an opening brace in compact form. -/
def compactListed (first : Bool) : List (String × Json) → List Char
  | [] => ['\x7d']
  | f :: fs => (if first then [] else [',']) ++ (compactField f ++ compactListed false fs)

theorem compactFields_eq (fields : List (String × Json)) :
    compactFields fields = compactListed false fields := by
  induction fields with
  | nil => rfl
  | cons f fields ih => rw [compactFields, compactListed, ih]; rfl

theorem compactChars_object (fields : List (String × Json)) :
    compactChars (.object fields) = '\x7b' :: compactListed true fields := by
  cases fields with
  | nil => rfl
  | cons f fields => rw [compactChars, compactFields_eq]; rfl

theorem compactField_eq {f : String × Json} (hplain : f.2.IsPlain) : compactField f =
    '\x22' :: (f.1.toList.flatMap escaped ++ '\x22' :: ':' :: prettyChars 0 f.2) := by
  obtain ⟨k, v⟩ := f
  rw [hplain 0]
  simp only [compactField, textChars, List.cons_append, List.append_assoc, List.nil_append]

theorem endsNumber_compactListed (fields : List (String × Json)) (rest : List Char) :
    EndsNumber (compactListed false fields ++ rest) := by
  cases fields with
  | nil => exact endsNumber_cons (by decide) _
  | cons f fields => exact endsNumber_cons (by decide) _

theorem nextKey_compactListed_cons (first : Bool) {f : String × Json} (hplain : f.2.IsPlain)
    (fields : List (String × Json)) (rest : List Char) :
    nextKey (ρ := ρ) first (compactListed first (f :: fields) ++ rest) =
      .ok (some (f.1.toList.flatMap escaped ++ '\x22' :: ':' ::
        (prettyChars 0 f.2 ++ (compactListed false fields ++ rest)))) := by
  rw [compactListed, List.append_assoc, List.append_assoc, compactField_eq hplain]
  generalize compactListed false fields ++ rest = after
  simp only [List.cons_append, List.append_assoc]
  cases first with
  | true => exact nextKey_first (skipBlanks_cons (by decide) _)
  | false => exact nextKey_comma (skipBlanks_cons (by decide) _)

section

variable {room : Nat} {fields : List (Field ρ σ)} {state last : σ} {written : List (String × Json)}

theorem Fills.fieldsOf_compactListed (h : Fills room fields state written last)
    (hplain : ∀ f ∈ written, f.2.IsPlain) {scope : Scope} (hroom : room ≤ scope.room) {fuel : Nat}
    {first : Bool} (hfuel : (compactListed first written).length ≤ fuel)
    (hscope : fuel ≤ scope.fuel) (rest : List Char) :
    fieldsOf fields scope fuel first state (compactListed first written ++ rest) =
      .ok (last, rest) := by
  induction h generalizing fuel first with
  | nil complete =>
    obtain ⟨fuel, rfl⟩ := Nat.exists_eq_add_one.mpr (Nat.lt_of_lt_of_le Nat.one_pos hfuel)
    refine bind_eq_ok_iff.mpr ⟨none, rfl, ?_⟩
    exact (if_pos complete).trans rfl
  | @cons state next last f k v written known new value _ ih =>
    obtain ⟨hfirst, hothers⟩ := List.forall_mem_cons.mp hplain
    have hlength : (prettyChars 0 v).length + (compactListed false written).length <
        (compactListed first ((k, v) :: written)).length := by
      rw [compactListed, compactField_eq hfirst]
      simp only [List.length_append, List.length_cons]
      omega
    have hread := value.reads hroom (Nat.le_of_lt (by omega))
      (endsNumber_compactListed written rest) ((value.starts 0).skipBlanks_append _)
    obtain ⟨fuel, rfl⟩ := Nat.exists_eq_add_one.mpr (by omega : 0 < fuel)
    refine bind_eq_ok_iff.mpr ⟨_, nextKey_compactListed_cons first hfirst written rest, ?_⟩
    refine bind_eq_ok_iff.mpr ⟨_, textBody_toList k _, ?_⟩
    simp only [known, new]
    refine bind_eq_ok_iff.mpr ⟨_, rfl, ?_⟩
    exact bind_eq_ok_iff.mpr ⟨_, hread, ih hothers (by omega) (by omega)⟩

theorem Fills.readRecord_compactChars (h : Fills room fields state written last)
    (hplain : ∀ f ∈ written, f.2.IsPlain) {scope : Scope} (hroom : room < scope.room)
    (hfuel : (compactChars (.object written)).length ≤ scope.fuel) :
    readRecord fields scope state (compactChars (.object written)) = .ok (last, []) := by
  rw [compactChars_object] at hfuel ⊢
  rw [List.length_cons] at hfuel
  have hinner : room ≤ scope.inner.room := Nat.le_sub_one_of_lt hroom
  have hread := h.fieldsOf_compactListed hplain hinner (Nat.le_of_succ_le hfuel)
    (Nat.le_refl scope.fuel) []
  rw [List.append_nil] at hread
  rw [readRecord, skipBlanks_cons (by decide)]
  exact (if_neg (Nat.ne_zero_of_lt hroom)).trans hread

theorem Fills.readRecord_text (h : Fills room fields state written last)
    (hplain : ∀ f ∈ written, f.2.IsPlain) (hroom : room < Scope.deepest) {text : String}
    (htext : text ∈ [compact (.object written), pretty (.object written)]) :
    readRecord fields (.ofText text.toList) state text.toList = .ok (last, []) := by
  simp only [List.mem_cons, List.not_mem_nil, or_false] at htext
  rcases htext with rfl | rfl
  · rw [compact, String.toList_ofList]
    exact h.readRecord_compactChars hplain hroom (Nat.le_succ _)
  · rw [pretty, String.toList_ofList]
    have htakes := h.takes
    have hskip := (htakes.starts 0).skipBlanks_append []
    rw [List.append_nil] at hskip
    exact htakes.reads hroom (Nat.le_succ _) endsNumber_nil (hskip.trans (List.append_nil _).symm)

end

end DeviceTrial.Json
