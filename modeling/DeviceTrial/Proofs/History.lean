namespace DeviceTrial

variable {α β : Type}

def transcriptAfter (answer : List α → α → Option β) (past : List α) : List α → List β
  | [] => []
  | c :: cs => (answer past c).toList ++ transcriptAfter answer (past ++ [c]) cs

/-- The answers to a history of calls, each by the calls before it. -/
def transcript (answer : List α → α → Option β) (calls : List α) : List β :=
  transcriptAfter answer [] calls

theorem transcriptAfter_concat (answer : List α → α → Option β) (past calls : List α) (c : α) :
    transcriptAfter answer past (calls ++ [c]) =
      transcriptAfter answer past calls ++ (answer (past ++ calls) c).toList := by
  induction calls generalizing past with
  | nil => simp [transcriptAfter]
  | cons d calls ih =>
    have hrest := ih (past ++ [d])
    rw [List.append_assoc] at hrest
    rw [List.cons_append, transcriptAfter, hrest, transcriptAfter, List.append_assoc]
    rfl

theorem transcript_concat (answer : List α → α → Option β) (calls : List α) (c : α) :
    transcript answer (calls ++ [c]) = transcript answer calls ++ (answer calls c).toList :=
  transcriptAfter_concat answer [] calls c

/-- How many entries at the end of a list have a property. -/
def trailing (p : α → Bool) (xs : List α) : Nat := (xs.reverse.takeWhile p).length

theorem trailing_concat (p : α → Bool) (xs : List α) (x : α) :
    trailing p (xs ++ [x]) = if p x then trailing p xs + 1 else 0 := by
  unfold trailing
  rw [List.reverse_append, List.reverse_singleton, List.singleton_append, List.takeWhile_cons]
  split <;> rfl

theorem le_length_takeWhile_iff {p : α → Bool} {xs : List α} {m : Nat} :
    m ≤ (xs.takeWhile p).length ↔ m ≤ xs.length ∧ ∀ x ∈ xs.take m, p x = true := by
  induction xs generalizing m with
  | nil => simp
  | cons x xs ih =>
    cases m with
    | zero => simp
    | succ m =>
      rw [List.takeWhile_cons]
      cases hx : p x with
      | false => simp [hx]
      | true => simp [hx, ih]

theorem le_trailing_iff {p : α → Bool} {xs : List α} {m : Nat} :
    m ≤ trailing p xs ↔ m ≤ xs.length ∧ ∀ x ∈ xs.drop (xs.length - m), p x = true := by
  rw [trailing, le_length_takeWhile_iff, List.length_reverse, List.take_reverse]
  simp only [List.mem_reverse]

theorem getLast?_filterMap_concat (f : α → Option β) (xs : List α) (x : α) :
    ((xs ++ [x]).filterMap f).getLast? = (f x).or (xs.filterMap f).getLast? := by
  cases h : f x with
  | none => simp [List.filterMap_append, h]
  | some y => simp [List.filterMap_append, h]

end DeviceTrial
