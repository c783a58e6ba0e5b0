import DeviceTrial.Proofs.Fallible
import DeviceTrial.Proofs.Json.Scalars
import Mathlib.Data.List.Forall2

/-!
Readers and the values that they take.

A reader takes a value where, before its pretty form at any indent and with room for its brackets,
it gives what is meant and stops right behind. The readers of arrays, objects and records take what
the readers of their parts take, so a format is read back once its parts are.
-/

namespace DeviceTrial.Json

variable {ρ α β σ : Type}

/-- A value may start here: no blank stands here, and no end of an array. -/
def StartsValue (cs : List Char) : Prop :=
  ∃ c tail, cs = c :: tail ∧ isBlank c = false ∧ c ≠ ']'

theorem skipBlanks_cons {c : Char} (hc : isBlank c = false) (cs : List Char) :
    skipBlanks (c :: cs) = c :: cs :=
  List.dropWhile_cons_of_neg (by simp [hc])

theorem StartsValue.skipBlanks_append {cs : List Char} (h : StartsValue cs) (rest : List Char) :
    skipBlanks (cs ++ rest) = cs ++ rest := by
  obtain ⟨c, tail, rfl, hc, -⟩ := h
  exact skipBlanks_cons hc _

theorem skipBlanks_newLine (indent : Nat) (cs : List Char) :
    skipBlanks (newLine indent ++ cs) = skipBlanks cs := by
  unfold newLine skipBlanks
  rw [List.cons_append, List.dropWhile_cons_of_pos (by decide)]
  induction indent with
  | zero => rfl
  | succ indent ih =>
    rw [List.replicate_succ, List.cons_append, List.dropWhile_cons_of_pos (by decide), ih]

/-- What stands behind an opening bracket: every item on a line of its own, commas between them, and
the closing bracket. -/
def listed (close : Char) (write : α → List Char) (indent : Nat) (first : Bool) :
    List α → List Char
  | [] => (if first then [] else newLine indent) ++ [close]
  | x :: xs =>
    (if first then [] else [',']) ++
      (newLine (indent + 2) ++ (write x ++ listed close write indent false xs))

theorem prettyItems_eq (indent : Nat) (js : List Json) :
    prettyItems indent js = listed ']' (prettyChars (indent + 2)) indent false js := by
  induction js with
  | nil => rfl
  | cons j js ih => rw [prettyItems, listed, ih]; rfl

theorem prettyFields_eq (indent : Nat) (fields : List (String × Json)) :
    prettyFields indent fields = listed '\x7d' (prettyField (indent + 2)) indent false fields := by
  induction fields with
  | nil => rfl
  | cons f fields ih => rw [prettyFields, listed, ih]; rfl

theorem prettyChars_array (indent : Nat) (js : List Json) :
    prettyChars indent (.array js) =
      '[' :: listed ']' (prettyChars (indent + 2)) indent true js := by
  cases js with
  | nil => rfl
  | cons j js => rw [prettyChars, prettyItems_eq]; rfl

theorem prettyChars_object (indent : Nat) (fields : List (String × Json)) :
    prettyChars indent (.object fields) =
      '\x7b' :: listed '\x7d' (prettyField (indent + 2)) indent true fields := by
  cases fields with
  | nil => rfl
  | cons f fields => rw [prettyChars, prettyFields_eq]; rfl

theorem endsNumber_cons {c : Char} (hc : Numeral.isDecimal c = false ∧ c ≠ '.' ∧ c ≠ 'e' ∧ c ≠ 'E')
    (cs : List Char) : EndsNumber (c :: cs) := by
  intro d hd
  cases hd
  exact hc

theorem endsNumber_listed (close : Char) (write : α → List Char) (indent : Nat) (xs : List α)
    (rest : List Char) : EndsNumber (listed close write indent false xs ++ rest) := by
  cases xs with
  | nil => exact endsNumber_cons (by decide) _
  | cons x xs => exact endsNumber_cons (by decide) _

theorem length_listed_cons (close : Char) (write : α → List Char) (indent : Nat) (first : Bool)
    (x : α) (xs : List α) :
    (write x).length + (listed close write indent false xs).length <
      (listed close write indent first (x :: xs)).length := by
  rw [listed, newLine]
  simp only [List.length_append, List.length_cons]
  omega

theorem length_listed_pos (close : Char) (write : α → List Char) (indent : Nat) (first : Bool)
    (xs : List α) : 0 < (listed close write indent first xs).length := by
  cases xs with
  | nil => simp [listed]
  | cons x xs => exact Nat.lt_of_le_of_lt (Nat.zero_le _) (length_listed_cons ..)

theorem skipBlanks_listed_nil {close : Char} (hclose : isBlank close = false)
    (write : α → List Char) (indent : Nat) (first : Bool) (rest : List Char) :
    skipBlanks (listed close write indent first [] ++ rest) = close :: rest := by
  cases first with
  | true => exact skipBlanks_cons hclose rest
  | false =>
    rw [listed, if_neg Bool.false_ne_true, List.append_assoc, skipBlanks_newLine]
    exact skipBlanks_cons hclose rest

theorem nextItem_first {cs tail : List Char} {c : Char} (h : skipBlanks cs = c :: tail)
    (hc : c ≠ ']') : nextItem (ρ := ρ) true cs = .ok (some (c :: tail)) := by
  unfold nextItem
  simp [h]

theorem nextItem_comma {cs tail : List Char} {c : Char} (h : skipBlanks cs = c :: tail)
    (hc : c ≠ ']') : nextItem (ρ := ρ) false (',' :: cs) = .ok (some (c :: tail)) := by
  unfold nextItem
  rw [skipBlanks_cons (by decide)]
  simp [h, hc]

theorem nextKey_first {cs tail : List Char} (h : skipBlanks cs = '\x22' :: tail) :
    nextKey (ρ := ρ) true cs = .ok (some tail) := by
  rw [nextKey, h]
  rfl

theorem nextKey_comma {cs tail : List Char} (h : skipBlanks cs = '\x22' :: tail) :
    nextKey (ρ := ρ) false (',' :: cs) = .ok (some tail) := by
  rw [nextKey, skipBlanks_cons (by decide)]
  simp [h]

section

variable (write : α → List Char) (indent : Nat) (first : Bool)

theorem nextItem_listed_nil (rest : List Char) :
    nextItem (ρ := ρ) first (listed ']' write indent first [] ++ rest) = .ok none := by
  rw [nextItem, skipBlanks_listed_nil (by decide)]
  rfl

theorem closeArray_listed_nil (rest : List Char) :
    closeArray (ρ := ρ) (listed ']' write indent first [] ++ rest) = .ok rest := by
  rw [closeArray, skipBlanks_listed_nil (by decide)]
  rfl

theorem nextKey_listed_nil (rest : List Char) :
    nextKey (ρ := ρ) first (listed '\x7d' write indent first [] ++ rest) = .ok none := by
  rw [nextKey, skipBlanks_listed_nil (by decide)]
  rfl

theorem closeObject_listed_nil (rest : List Char) :
    closeObject (ρ := ρ) (listed '\x7d' write indent first [] ++ rest) = .ok rest := by
  rw [closeObject, skipBlanks_listed_nil (by decide)]
  rfl

theorem nextItem_listed_cons {x : α} (hx : StartsValue (write x)) (xs : List α)
    (rest : List Char) :
    nextItem (ρ := ρ) first (listed ']' write indent first (x :: xs) ++ rest) =
      .ok (some (write x ++ (listed ']' write indent false xs ++ rest))) := by
  obtain ⟨c, tail, hc, hblank, hclose⟩ := hx
  rw [listed, List.append_assoc, List.append_assoc, List.append_assoc]
  generalize listed ']' write indent false xs ++ rest = after
  have hskip : skipBlanks (newLine (indent + 2) ++ (write x ++ after)) = c :: (tail ++ after) := by
    rw [skipBlanks_newLine, hc, List.cons_append, skipBlanks_cons hblank]
  have hhead : c :: (tail ++ after) = write x ++ after := by rw [hc, List.cons_append]
  cases first with
  | true => exact (nextItem_first hskip hclose).trans (by rw [hhead])
  | false => exact (nextItem_comma hskip hclose).trans (by rw [hhead])

end

theorem prettyField_eq (indent : Nat) (f : String × Json) :
    prettyField indent f =
      '\x22' :: (f.1.toList.flatMap escaped ++ '\x22' :: ':' :: ' ' :: prettyChars indent f.2) := by
  obtain ⟨k, v⟩ := f
  simp only [prettyField, textChars, List.cons_append, List.append_assoc, List.nil_append]

theorem nextKey_listed_cons (indent : Nat) (first : Bool) (f : String × Json)
    (fields : List (String × Json)) (rest : List Char) :
    nextKey (ρ := ρ) first
      (listed '\x7d' (prettyField (indent + 2)) indent first (f :: fields) ++ rest) =
        .ok (some (f.1.toList.flatMap escaped ++ '\x22' :: ':' :: ' ' ::
          (prettyChars (indent + 2) f.2 ++
            (listed '\x7d' (prettyField (indent + 2)) indent false fields ++ rest)))) := by
  rw [listed, List.append_assoc, List.append_assoc, List.append_assoc, prettyField_eq]
  generalize listed '\x7d' (prettyField (indent + 2)) indent false fields ++ rest = after
  simp only [List.cons_append, List.append_assoc]
  have hskip (cs : List Char) :
      skipBlanks (newLine (indent + 2) ++ '\x22' :: cs) = '\x22' :: cs :=
    (skipBlanks_newLine _ _).trans (skipBlanks_cons (by decide) cs)
  cases first with
  | true => exact nextKey_first (hskip _)
  | false => exact nextKey_comma (hskip _)

theorem StartsValue.skipBlanks_space {cs : List Char} (h : StartsValue cs) (rest : List Char) :
    skipBlanks (' ' :: (cs ++ rest)) = cs ++ rest :=
  (List.dropWhile_cons_of_pos (by decide)).trans (h.skipBlanks_append rest)

/-- A reader takes a value and gives what is meant by it, where so many brackets may be opened. -/
structure Takes (room : Nat) (read : Scope → List Char → Except (Fault ρ) (α × List Char))
    (j : Json) (a : α) : Prop where
  starts : ∀ indent, StartsValue (prettyChars indent j)
  reads : ∀ {scope : Scope} {indent : Nat} {cs rest : List Char}, room ≤ scope.room →
    (prettyChars indent j).length ≤ scope.fuel → EndsNumber rest →
    skipBlanks cs = prettyChars indent j ++ rest → read scope cs = .ok (a, rest)

/-- A reader takes a key from behind its opening quote. -/
def TakesKey (key : List Char → Except (Fault ρ) (α × List Char)) (k : String) (a : α) : Prop :=
  ∀ rest, key (k.toList.flatMap escaped ++ '\x22' :: rest) = .ok (a, rest)

structure TakesField (room : Nat) (key : List Char → Except (Fault ρ) (α × List Char))
    (read : Scope → List Char → Except (Fault ρ) (β × List Char)) (f : String × Json)
    (e : α × β) : Prop where
  key : TakesKey key f.1 e.1
  value : Takes room read f.2 e.2

section

variable {room : Nat} {read : Scope → List Char → Except (Fault ρ) (α × List Char)}
  {key : List Char → Except (Fault ρ) (σ × List Char)}

theorem Takes.mono {more : Nat} {j : Json} {a : α} (h : Takes room read j a) (hroom : room ≤ more) :
    Takes more read j a where
  starts := h.starts
  reads := fun hmore => h.reads (Nat.le_trans hroom hmore)

theorem Takes.bind {j : Json} {a : α} {b : β} (h : Takes room read j a)
    {next : α × List Char → Except (Fault ρ) (β × List Char)}
    (hnext : ∀ rest, next (a, rest) = .ok (b, rest)) :
    Takes room (fun scope cs => read scope cs >>= next) j b where
  starts := h.starts
  reads := fun hroom hfuel hrest hcs =>
    bind_eq_ok_iff.mpr ⟨_, h.reads hroom hfuel hrest hcs, hnext _⟩

theorem Takes.reads_field {f : String × Json} {a : α} (h : Takes room read f.2 a) {scope : Scope}
    (hroom : room ≤ scope.room) {indent : Nat} {first : Bool} {fields : List (String × Json)}
    (hfuel : (listed '\x7d' (prettyField (indent + 2)) indent first (f :: fields)).length ≤
      scope.fuel) (rest : List Char) :
    read scope (' ' :: (prettyChars (indent + 2) f.2 ++
      (listed '\x7d' (prettyField (indent + 2)) indent false fields ++ rest))) =
        .ok (a, listed '\x7d' (prettyField (indent + 2)) indent false fields ++ rest) := by
  have hlength := length_listed_cons '\x7d' (prettyField (indent + 2)) indent first f fields
  refine h.reads hroom ?_ (endsNumber_listed '\x7d' (prettyField (indent + 2)) indent fields rest)
    ((h.starts (indent + 2)).skipBlanks_space _)
  rw [prettyField_eq] at hlength
  simp only [List.length_append, List.length_cons] at hlength
  omega

theorem items_listed {js : List Json} {as : List α} (h : List.Forall₂ (Takes room read) js as)
    {scope : Scope} (hroom : room ≤ scope.room) {indent fuel : Nat} {first : Bool}
    (hfuel : (listed ']' (prettyChars (indent + 2)) indent first js).length ≤ fuel)
    (hscope : fuel ≤ scope.fuel) (acc : List α) (rest : List Char) :
    items (read scope) fuel first acc
      (listed ']' (prettyChars (indent + 2)) indent first js ++ rest) =
        .ok (acc.reverse ++ as, rest) := by
  induction h generalizing fuel first acc with
  | nil =>
    have hpos := Nat.lt_of_lt_of_le (length_listed_pos ..) hfuel
    obtain ⟨fuel, rfl⟩ := Nat.exists_eq_add_one.mpr hpos
    rw [List.append_nil]
    exact bind_eq_ok_iff.mpr ⟨_, nextItem_listed_nil .., bind_eq_ok_iff.mpr
      ⟨_, closeArray_listed_nil .., rfl⟩⟩
  -- every item takes at least one character, so the fuel suffices for the rest
  | @cons j a js as hj _ ih =>
    have hlength := length_listed_cons ']' (prettyChars (indent + 2)) indent first j js
    obtain ⟨fuel, rfl⟩ := Nat.exists_eq_add_one.mpr (by omega : 0 < fuel)
    have hread := hj.reads hroom (by omega)
      (endsNumber_listed ']' (prettyChars (indent + 2)) indent js rest)
      ((hj.starts (indent + 2)).skipBlanks_append _)
    refine bind_eq_ok_iff.mpr ⟨_, nextItem_listed_cons _ _ _ (hj.starts _) _ _,
      bind_eq_ok_iff.mpr ⟨_, hread, ?_⟩⟩
    refine (ih (by omega) (by omega) (a :: acc)).trans ?_
    rw [List.reverse_cons, List.append_assoc, List.singleton_append]

theorem entries_listed {fields : List (String × Json)} {es : List (σ × α)}
    (h : List.Forall₂ (TakesField room key read) fields es) {scope : Scope}
    (hroom : room ≤ scope.room) {indent fuel : Nat} {first : Bool}
    (hfuel : (listed '\x7d' (prettyField (indent + 2)) indent first fields).length ≤ fuel)
    (hscope : fuel ≤ scope.fuel) (acc : List (σ × α)) (rest : List Char) :
    entries key (read scope) fuel first acc
      (listed '\x7d' (prettyField (indent + 2)) indent first fields ++ rest) =
        .ok (acc.reverse ++ es, rest) := by
  induction h generalizing fuel first acc with
  | nil =>
    have hpos := Nat.lt_of_lt_of_le (length_listed_pos ..) hfuel
    obtain ⟨fuel, rfl⟩ := Nat.exists_eq_add_one.mpr hpos
    rw [List.append_nil]
    exact bind_eq_ok_iff.mpr ⟨_, nextKey_listed_nil .., bind_eq_ok_iff.mpr
      ⟨_, closeObject_listed_nil .., rfl⟩⟩
  | @cons f e fields es hf _ ih =>
    have hlength := length_listed_cons '\x7d' (prettyField (indent + 2)) indent first f fields
    have hread := hf.value.reads_field hroom (Nat.le_trans hfuel hscope) rest
    obtain ⟨fuel, rfl⟩ := Nat.exists_eq_add_one.mpr (by omega : 0 < fuel)
    refine bind_eq_ok_iff.mpr ⟨_, nextKey_listed_cons indent first f fields rest, ?_⟩
    refine bind_eq_ok_iff.mpr ⟨_, hf.key _, bind_eq_ok_iff.mpr ⟨_, rfl, ?_⟩⟩
    refine bind_eq_ok_iff.mpr ⟨_, hread, ?_⟩
    refine (ih (by omega) (by omega) (e :: acc)).trans ?_
    rw [List.reverse_cons, List.append_assoc, List.singleton_append]

theorem startsValue_array (indent : Nat) (js : List Json) :
    StartsValue (prettyChars indent (.array js)) :=
  ⟨_, _, prettyChars_array indent js, by decide, by decide⟩

theorem startsValue_object (indent : Nat) (fields : List (String × Json)) :
    StartsValue (prettyChars indent (.object fields)) :=
  ⟨_, _, prettyChars_object indent fields, by decide, by decide⟩

theorem takes_readArray {js : List Json} {as : List α} (h : List.Forall₂ (Takes room read) js as) :
    Takes (room + 1) (fun scope => readArray scope read) (.array js) as where
  starts := fun indent => startsValue_array indent js
  reads := by
    intro scope indent cs rest hroom hfuel _ hcs
    rw [prettyChars_array] at hfuel hcs
    rw [List.length_cons] at hfuel
    rw [readArray, hcs]
    refine (if_neg (by omega)).trans ?_
    have hinner : room ≤ scope.inner.room := Nat.le_sub_one_of_lt hroom
    exact items_listed h hinner (Nat.le_of_succ_le hfuel) (Nat.le_refl _) [] rest

theorem takes_readObject {fields : List (String × Json)} {es : List (σ × α)}
    (h : List.Forall₂ (TakesField room key read) fields es) :
    Takes (room + 1) (fun scope => readObject scope key read) (.object fields) es where
  starts := fun indent => startsValue_object indent fields
  reads := by
    intro scope indent cs rest hroom hfuel _ hcs
    rw [prettyChars_object] at hfuel hcs
    rw [List.length_cons] at hfuel
    rw [readObject, hcs]
    refine (if_neg (by omega)).trans ?_
    have hinner : room ≤ scope.inner.room := Nat.le_sub_one_of_lt hroom
    exact entries_listed h hinner (Nat.le_of_succ_le hfuel) (Nat.le_refl _) [] rest

end

/-- The fields of a record, taken one after another, lead from one state to another. -/
inductive Fills (room : Nat) (fields : List (Field ρ σ)) : σ → List (String × Json) → σ → Prop
  | nil {state : σ} (complete : (fields.all fun f => f.given state || f.optional) = true) :
      Fills room fields state [] state
  | cons {state next last : σ} {f : Field ρ σ} {k : String} {v : Json}
      {written : List (String × Json)} (known : fields.find? (·.name = k) = some f)
      (new : f.given state = false) (value : Takes room (fun scope => f.read scope state) v next)
      (others : Fills room fields next written last) :
      Fills room fields state ((k, v) :: written) last

section

variable {room : Nat} {fields : List (Field ρ σ)}

theorem Fills.fieldsOf_listed {state last : σ} {written : List (String × Json)}
    (h : Fills room fields state written last) {scope : Scope} (hroom : room ≤ scope.room)
    {indent fuel : Nat} {first : Bool}
    (hfuel : (listed '\x7d' (prettyField (indent + 2)) indent first written).length ≤ fuel)
    (hscope : fuel ≤ scope.fuel) (rest : List Char) :
    fieldsOf fields scope fuel first state
      (listed '\x7d' (prettyField (indent + 2)) indent first written ++ rest) =
        .ok (last, rest) := by
  induction h generalizing fuel first with
  | nil complete =>
    have hpos := Nat.lt_of_lt_of_le (length_listed_pos ..) hfuel
    obtain ⟨fuel, rfl⟩ := Nat.exists_eq_add_one.mpr hpos
    refine bind_eq_ok_iff.mpr ⟨_, nextKey_listed_nil .., ?_⟩
    refine (if_pos complete).trans ?_
    exact bind_eq_ok_iff.mpr ⟨_, closeObject_listed_nil .., rfl⟩
  | @cons state next last f k v written known new value _ ih =>
    have hlength := length_listed_cons '\x7d' (prettyField (indent + 2)) indent first (k, v) written
    have hread := value.reads_field (f := (k, v)) hroom (Nat.le_trans hfuel hscope) rest
    obtain ⟨fuel, rfl⟩ := Nat.exists_eq_add_one.mpr (by omega : 0 < fuel)
    refine bind_eq_ok_iff.mpr ⟨_, nextKey_listed_cons indent first (k, v) written rest, ?_⟩
    refine bind_eq_ok_iff.mpr ⟨_, textBody_toList k _, ?_⟩
    simp only [known, new]
    refine bind_eq_ok_iff.mpr ⟨_, rfl, ?_⟩
    exact bind_eq_ok_iff.mpr ⟨_, hread, ih (by omega) (by omega)⟩

theorem Fills.takes {state last : σ} {written : List (String × Json)}
    (h : Fills room fields state written last) :
    Takes (room + 1) (fun scope => readRecord fields scope state) (.object written) last where
  starts := fun indent => startsValue_object indent written
  reads := by
    intro scope indent cs rest hroom hfuel _ hcs
    rw [prettyChars_object] at hfuel hcs
    rw [List.length_cons] at hfuel
    rw [readRecord, hcs]
    refine (if_neg (by omega)).trans ?_
    have hinner : room ≤ scope.inner.room := Nat.le_sub_one_of_lt hroom
    exact h.fieldsOf_listed hinner (Nat.le_of_succ_le hfuel) (Nat.le_refl _) rest

end

end DeviceTrial.Json
