import DeviceTrial.Proofs.Text.Hex
import DeviceTrial.Toml.Text

namespace DeviceTrial.Toml

/-! ## Characters within double quotes -/

/-- What stands for a character: itself, or one of its escapes. A line feed stands for itself where
there may be many lines. -/
inductive Stands : (multiline : Bool) → Char → List Char → Prop
  | plain {multiline : Bool} {c : Char} (hplain : isPlain c = true) (hquote : c ≠ '\x22')
      (hslash : c ≠ '\\') : Stands multiline c [c]
  | line : Stands true '\n' ['\n']
  | named {multiline : Bool} {c d : Char} (hname : escapeOf d = some c) :
      Stands multiline c ['\\', d]
  | coded {multiline : Bool} {c x₁ x₂ x₃ x₄ : Char} (hcode : codePoint [x₁, x₂, x₃, x₄] = some c) :
      Stands multiline c ['\\', 'u', x₁, x₂, x₃, x₄]

section

variable {multiline : Bool} {c : Char} {word : List Char}

theorem isPlain_of_not_isControl (h : isControl c = false) (hline : c ≠ '\n') :
    isPlain c = true := by
  simp only [isControl, Bool.or_eq_false_iff, Bool.and_eq_false_iff, decide_eq_false_iff_not,
    bne_eq_false_iff_eq, beq_eq_false_iff_ne] at h
  obtain ⟨(hlarge | rfl) | rfl, hdelete⟩ := h
  · simp [isPlain, Nat.le_of_not_lt hlarge, hdelete]
  · rfl
  · exact absurd rfl hline

theorem toNat_lt_of_isControl (h : isControl c = true) : c.toNat < 128 := by
  simp only [isControl, Bool.or_eq_true, Bool.and_eq_true, decide_eq_true_eq, beq_iff_eq] at h
  rcases h with ⟨⟨hsmall, -⟩, -⟩ | rfl
  · omega
  · decide

theorem codePoint_of_isControl (h : isControl c = true) :
    ∃ x₁ x₂ x₃ x₄, (Numeral.hexDigits 4 c.toNat).map Char.toUpper = [x₁, x₂, x₃, x₄] ∧
      codePoint [x₁, x₂, x₃, x₄] = some c := by
  have hcode := Hex.forall_ascii
    (P := fun c => isControl c = true →
      ((Numeral.hexDigits 4 c.toNat).map Char.toUpper).length = 4 ∧
      codePoint ((Numeral.hexDigits 4 c.toNat).map Char.toUpper) = some c)
    (by decide) (toNat_lt_of_isControl h) h
  obtain ⟨x₁, x₂, x₃, x₄, hdigits⟩ := List.length_eq_four.mp hcode.1
  exact ⟨x₁, x₂, x₃, x₄, hdigits, hdigits ▸ hcode.2⟩

theorem stands_escape (multiline : Bool) (hquote : c ≠ '\x22') :
    Stands multiline c (escape multiline c) := by
  unfold escape
  split
  · exact .named rfl
  · exact .named rfl
  · cases multiline with
    | true => exact .line
    | false => exact .named rfl
  · exact .named rfl
  · exact .named rfl
  · exact .named rfl
  · rename_i hline _ _ hslash
    cases h : isControl c with
    | true =>
      obtain ⟨x₁, x₂, x₃, x₄, hdigits, hcode⟩ := codePoint_of_isControl h
      rw [hdigits]
      exact .coded hcode
    | false => exact .plain (isPlain_of_not_isControl h hline) hquote hslash

theorem Stands.exists_cons (h : Stands multiline c word) :
    ∃ d tail, word = d :: tail ∧ d ≠ '\x22' ∧ (c ≠ '\n' → isPlain d = true) := by
  cases h with
  | plain hplain hquote _ => exact ⟨c, [], rfl, hquote, fun _ => hplain⟩
  | line => exact ⟨'\n', [], rfl, by decide, fun h => absurd rfl h⟩
  | named _ => exact ⟨'\\', _, rfl, by decide, fun _ => rfl⟩
  | coded _ => exact ⟨'\\', _, rfl, by decide, fun _ => rfl⟩

theorem basicText_of_stands (h : Stands false c word) (acc rest : List Char) :
    basicText acc (word ++ rest) = basicText (c :: acc) rest := by
  cases h with
  | plain hplain hquote hslash =>
    rw [List.singleton_append, basicText]
    · simp [hquote, hslash, hplain]
    all_goals
      intros
      contradiction
  | named hname =>
    unfold escapeOf at hname
    split at hname <;> cases hname <;> rfl
  | coded hcode => simp [basicText, hcode]

theorem longBasicText_of_stands (h : Stands true c word) (acc rest : List Char) :
    longBasicText .outside acc (word ++ rest) = longBasicText .outside (c :: acc) rest := by
  cases h with
  | plain hplain hquote hslash =>
    have hreturn : c ≠ '\r' := by rintro rfl; cases hplain
    have hline : c ≠ '\n' := by rintro rfl; cases hplain
    rw [List.singleton_append, longBasicText]
    · simp [hplain, hslash]
    all_goals
      intros
      contradiction
  | line => rfl
  | named hname =>
    unfold escapeOf at hname
    split at hname <;> cases hname <;> rfl
  | coded hcode => simp [longBasicText, hcode]

end

/-! ## Quotes within a text -/

section

variable {multiline : Bool} {limit run k : Nat} {quote : Char} {cs rest : List Char}

/-- A quote among what is written stands for itself, and so many in a row do at most. -/
theorem exists_of_escapeAll_eq_cons {tail : List Char}
    (h : escapeAll multiline limit run cs = '\x22' :: tail) :
    ∃ ds, cs = '\x22' :: ds ∧ run < limit ∧ tail = escapeAll multiline limit (run + 1) ds := by
  cases cs with
  | nil => cases h
  | cons c cs =>
    rw [escapeAll] at h
    split_ifs at h with hquote hrun
    · obtain rfl := hquote
      exact ⟨cs, rfl, hrun, (List.cons.inj h).2.symm⟩
    · cases h
    · obtain ⟨d, word, hword, hd, -⟩ := (stands_escape multiline hquote).exists_cons
      rw [hword] at h
      exact absurd (List.cons.inj h).1 hd

theorem exists_stands_escapeAll_cons {c : Char} (h : c = '\x22' → ¬ run < limit) (cs : List Char) :
    ∃ word, Stands multiline c word ∧
      escapeAll multiline limit run (c :: cs) = word ++ escapeAll multiline limit 0 cs := by
  rw [escapeAll]
  split_ifs with hquote hrun
  · exact absurd hrun (h hquote)
  · exact ⟨['\\', c], hquote ▸ .named rfl, rfl⟩
  · exact ⟨escape multiline c, stands_escape multiline hquote, rfl⟩

theorem eq_replicate_of_escapeAll (h : escapeAll multiline limit run cs = .replicate k '\x22') :
    cs = .replicate k '\x22' := by
  induction k generalizing run cs with
  | zero =>
    cases cs with
    | nil => rfl
    | cons c cs =>
      rw [escapeAll] at h
      split_ifs at h with hquote
      · cases h
      · cases h
      · obtain ⟨d, word, hword, -⟩ := (stands_escape multiline hquote).exists_cons
        rw [hword] at h
        cases h
  | succ k ih =>
    obtain ⟨ds, rfl, -, htail⟩ := exists_of_escapeAll_eq_cons h
    rw [ih htail.symm, List.replicate_succ]

theorem not_prefix_escapeAll (run : Nat) (cs : List Char) :
    ¬ ['\x22', '\x22', '\x22'] <+: escapeAll true 2 run cs := by
  rintro ⟨tail, h⟩
  obtain ⟨ds, rfl, -, h⟩ := exists_of_escapeAll_eq_cons h.symm
  obtain ⟨ds, rfl, -, h⟩ := exists_of_escapeAll_eq_cons h.symm
  obtain ⟨ds, rfl, hrun, -⟩ := exists_of_escapeAll_eq_cons h.symm
  omega

theorem le_longestRun (quote : Char) (run : Nat) (cs : List Char) :
    run ≤ longestRun quote run cs := by
  induction cs generalizing run with
  | nil => exact Nat.le_refl run
  | cons c cs ih =>
    rw [longestRun]
    split
    · exact Nat.le_of_succ_le (ih (run + 1))
    · exact Nat.le_max_left _ _

theorem notMem_of_longestRun (h : longestRun quote run cs = 0) : quote ∉ cs := by
  induction cs generalizing run with
  | nil => exact List.not_mem_nil
  | cons c cs ih =>
    rw [longestRun] at h
    split_ifs at h with hquote
    · have hrun := le_longestRun quote (run + 1) cs
      omega
    · exact List.not_mem_cons_of_ne_of_not_mem (Ne.symm hquote) (ih (Nat.max_eq_zero_iff.mp h).2)

theorem not_prefix_of_longestRun (h : longestRun quote run cs ≤ 2) :
    ¬ [quote, quote, quote] <+: cs := by
  rintro ⟨tail, rfl⟩
  have hrun := le_longestRun quote (run + 1 + 1 + 1) tail
  simp only [List.cons_append, List.nil_append, longestRun, if_true] at h
  omega

/-- Where no three quotes stand the text goes on, or it ends with the quotes that stand here. -/
theorem eq_replicate_or_not_prefix (h : ¬ [quote, quote, quote] <+: cs) :
    (∃ k ≤ 2, cs = .replicate k quote) ∨
      ∀ rest, ¬ [quote, quote, quote] <+: cs ++ .replicate 3 quote ++ rest := by
  match cs with
  | [] => exact .inl ⟨0, by decide, rfl⟩
  | [a] =>
    by_cases ha : a = quote
    · exact .inl ⟨1, by decide, by rw [ha]; rfl⟩
    · exact .inr fun rest hthree => ha (List.cons_prefix_cons.mp hthree).1.symm
  | [a, b] =>
    by_cases hab : a = quote ∧ b = quote
    · exact .inl ⟨2, by decide, by rw [hab.1, hab.2]; rfl⟩
    · refine .inr fun rest hthree => hab ?_
      obtain ⟨ha, hthree⟩ := List.cons_prefix_cons.mp hthree
      exact ⟨ha.symm, (List.cons_prefix_cons.mp hthree).1.symm⟩
  | a :: b :: c :: cs =>
    refine .inr fun rest hthree => h ?_
    simpa [List.cons_prefix_cons] using hthree

theorem replicate_append_closing (k : Nat) (quote : Char) (rest : List Char) :
    .replicate k quote ++ .replicate 3 quote ++ rest =
      quote :: quote :: quote :: (.replicate k quote ++ rest) := by
  rw [List.replicate_append_replicate, Nat.add_comm, ← List.replicate_append_replicate,
    List.append_assoc]
  rfl

/-- Up to two quotes more than the closing ones belong to the text. -/
theorem closing_replicate (hrest : ∀ c ∈ rest.head?, c ≠ quote) (hk : k ≤ 2) (acc : List Char) :
    closing quote acc (.replicate k quote ++ rest) = (acc.reverse ++ .replicate k quote, rest) := by
  match k with
  | 0 =>
    match rest with
    | [] => simp [closing]
    | [a] => simp [closing, hrest a rfl]
    | a :: b :: rest => simp [closing, hrest a rfl]
  | 1 =>
    match rest with
    | [] => simp [closing]
    | a :: rest => simp [closing, hrest a rfl]
  | 2 => simp [closing]

end

/-! ## Texts behind their opening quotes -/

section

variable {run : Nat} {cs rest : List Char}

theorem basicText_escapeAll (cs acc rest : List Char) :
    basicText acc (escapeAll false 0 run cs ++ '\x22' :: rest) =
      some (acc.reverse ++ cs, rest) := by
  induction cs generalizing acc run with
  | nil => simp [escapeAll, basicText]
  | cons c cs ih =>
    obtain ⟨word, hword, heq⟩ : ∃ word, Stands false c word ∧
        escapeAll false 0 run (c :: cs) = word ++ escapeAll false 0 0 cs :=
      exists_stands_escapeAll_cons (fun _ => Nat.not_lt_zero run) cs
    rw [heq, List.append_assoc, basicText_of_stands hword, ih, List.reverse_cons, List.append_assoc,
      List.singleton_append]

theorem literalText_append (hquote : '\x27' ∉ cs) (hplain : ∀ c ∈ cs, isPlain c = true)
    (acc rest : List Char) :
    literalText acc (cs ++ '\x27' :: rest) = some (acc.reverse ++ cs, rest) := by
  induction cs generalizing acc with
  | nil => simp [literalText]
  | cons c cs ih =>
    obtain ⟨hc, hquote⟩ := not_or.mp (List.mem_cons.not.mp hquote)
    obtain ⟨hcplain, hplain⟩ := List.forall_mem_cons.mp hplain
    rw [List.cons_append, literalText, if_neg (Ne.symm hc), if_pos hcplain, ih hquote hplain,
      List.reverse_cons, List.append_assoc, List.singleton_append]

theorem longBasicText_close (hrest : ∀ c ∈ rest.head?, c ≠ '\x22') {k : Nat} (hk : k ≤ 2)
    (acc : List Char) :
    longBasicText .outside acc (.replicate k '\x22' ++ .replicate 3 '\x22' ++ rest) =
      some (acc.reverse ++ .replicate k '\x22', rest) := by
  rw [replicate_append_closing, ← closing_replicate hrest hk acc]
  rfl

theorem longBasicText_quote {cs : List Char}
    (h : ¬ ['\x22', '\x22', '\x22'] <+: '\x22' :: cs) (acc : List Char) :
    longBasicText .outside acc ('\x22' :: cs) = longBasicText .outside ('\x22' :: acc) cs := by
  rw [longBasicText]
  · simp [isPlain]
  · rintro tail - rfl
    exact h ⟨tail, rfl⟩
  all_goals
    intros
    contradiction

theorem longBasicText_escapeAll (hrest : ∀ c ∈ rest.head?, c ≠ '\x22') (cs acc : List Char) :
    longBasicText .outside acc (escapeAll true 2 run cs ++ .replicate 3 '\x22' ++ rest) =
      some (acc.reverse ++ cs, rest) := by
  induction cs generalizing acc run with
  | nil => exact longBasicText_close hrest (Nat.zero_le 2) acc
  | cons c cs ih =>
    have hmore (acc : List Char) : (c :: acc).reverse ++ cs = acc.reverse ++ c :: cs := by simp
    by_cases h : c = '\x22' ∧ run < 2
    · obtain ⟨rfl, hrun⟩ := h
      have hwritten : escapeAll true 2 run ('\x22' :: cs) =
          '\x22' :: escapeAll true 2 (run + 1) cs := by rw [escapeAll, if_pos rfl, if_pos hrun]
      -- a quote that stands for itself closes the text only if nothing but quotes follows it
      rcases eq_replicate_or_not_prefix (not_prefix_escapeAll run ('\x22' :: cs)) with
        ⟨k, hk, heq⟩ | hthree
      · rw [heq, longBasicText_close hrest hk, eq_replicate_of_escapeAll heq]
      · have hthree := hthree rest
        rw [hwritten] at hthree ⊢
        rw [← hmore, ← ih]
        exact longBasicText_quote hthree acc
    · obtain ⟨word, hword, heq⟩ : ∃ word, Stands true c word ∧
          escapeAll true 2 run (c :: cs) = word ++ escapeAll true 2 0 cs :=
        exists_stands_escapeAll_cons (fun hc hrun => h ⟨hc, hrun⟩) cs
      rw [heq, List.append_assoc, List.append_assoc, longBasicText_of_stands hword,
        ← List.append_assoc, ih, hmore]

theorem longLiteralText_close (hrest : ∀ c ∈ rest.head?, c ≠ '\x27') {k : Nat} (hk : k ≤ 2)
    (acc : List Char) :
    longLiteralText acc (.replicate k '\x27' ++ .replicate 3 '\x27' ++ rest) =
      some (acc.reverse ++ .replicate k '\x27', rest) := by
  rw [replicate_append_closing, ← closing_replicate hrest hk acc]
  rfl

theorem longLiteralText_cons {c : Char} {cs : List Char} (hplain : c = '\n' ∨ isPlain c = true)
    (h : ¬ ['\x27', '\x27', '\x27'] <+: c :: cs) (acc : List Char) :
    longLiteralText acc (c :: cs) = longLiteralText (c :: acc) cs := by
  rw [longLiteralText, if_pos hplain]
  · rintro tail rfl rfl
    exact h ⟨tail, rfl⟩
  · rintro tail rfl rfl
    rcases hplain with hplain | hplain <;> cases hplain

theorem longLiteralText_append (hrest : ∀ c ∈ rest.head?, c ≠ '\x27') {cs : List Char}
    (hrun : longestRun '\x27' run cs ≤ 2) (hplain : ∀ c ∈ cs, c = '\n' ∨ isPlain c = true)
    (acc : List Char) :
    longLiteralText acc (cs ++ .replicate 3 '\x27' ++ rest) = some (acc.reverse ++ cs, rest) := by
  induction cs generalizing acc run with
  | nil => exact longLiteralText_close hrest (Nat.zero_le 2) acc
  | cons c cs ih =>
    -- the rest is a few quotes before the closing ones, or no three quotes start here
    rcases eq_replicate_or_not_prefix (not_prefix_of_longestRun hrun) with ⟨k, hk, heq⟩ | hthree
    · rw [heq, longLiteralText_close hrest hk]
    · obtain ⟨hc, hplain⟩ := List.forall_mem_cons.mp hplain
      have hnext : ∃ run, longestRun '\x27' run cs ≤ 2 := by
        rw [longestRun] at hrun
        split_ifs at hrun
        · exact ⟨run + 1, hrun⟩
        · exact ⟨0, (Nat.max_le.mp hrun).2⟩
      obtain ⟨run, hrun⟩ := hnext
      refine (longLiteralText_cons hc (hthree rest) acc).trans ?_
      refine (ih hrun hplain (c :: acc)).trans ?_
      rw [List.reverse_cons, List.append_assoc, List.singleton_append]

end

/-! ## Quoted texts -/

section

variable {cs rest : List Char}

/-- No quotes stand here that would change what was read before. -/
def EndsText (rest : List Char) : Prop := ∀ c ∈ rest.head?, c ≠ '\x22' ∧ c ≠ '\x27'

theorem isPlain_of_any_isControl (h : cs.any isControl = false) {c : Char} (hc : c ∈ cs) :
    c = '\n' ∨ isPlain c = true := by
  have hcontrol : isControl c = false := by simpa using List.any_eq_false.mp h c hc
  by_cases hline : c = '\n'
  · exact .inl hline
  · exact .inr (isPlain_of_not_isControl hcontrol hline)

theorem quotesFor_single (h : quotesFor cs = .single) :
    '\x27' ∉ cs ∧ ∀ c ∈ cs, isPlain c = true := by
  unfold quotesFor at h
  dsimp only at h
  split_ifs at h with hdouble hsingle
  simp only [Bool.and_eq_true, Bool.not_eq_true', decide_eq_true_eq] at hsingle
  obtain ⟨⟨hcontrol, hrun⟩, hlines⟩ := hsingle
  refine ⟨notMem_of_longestRun hrun, fun c hc => ?_⟩
  rcases isPlain_of_any_isControl hcontrol hc with rfl | hplain
  · exact absurd hc (by simpa using hlines)
  · exact hplain

theorem quotesFor_tripleSingle (h : quotesFor cs = .tripleSingle) :
    longestRun '\x27' 0 cs ≤ 2 ∧ ∀ c ∈ cs, c = '\n' ∨ isPlain c = true := by
  unfold quotesFor at h
  dsimp only at h
  split_ifs at h with _ _ _ hsingle
  simp only [Bool.and_eq_true, Bool.not_eq_true', decide_eq_true_eq] at hsingle
  exact ⟨hsingle.2, fun c hc => isPlain_of_any_isControl hsingle.1 hc⟩

theorem isPlain_head?_escapeAll {multiline : Bool} {limit run : Nat} (h : '\n' ∉ cs) {d : Char}
    (hd : d ∈ (escapeAll multiline limit run cs).head?) : isPlain d = true := by
  cases cs with
  | nil => cases hd
  | cons c cs =>
    by_cases hquote : c = '\x22' ∧ run < limit
    · obtain ⟨rfl, hrun⟩ := hquote
      rw [escapeAll, if_pos rfl, if_pos hrun] at hd
      cases hd
      rfl
    · obtain ⟨word, hword, heq⟩ : ∃ word, Stands multiline c word ∧
          escapeAll multiline limit run (c :: cs) = word ++ escapeAll multiline limit 0 cs :=
        exists_stands_escapeAll_cons (fun hc hrun => hquote ⟨hc, hrun⟩) cs
      obtain ⟨e, tail, rfl, -, hplain⟩ := hword.exists_cons
      rw [heq] at hd
      cases hd
      exact hplain fun hc => h (hc ▸ List.mem_cons_self)

/-- The line on which a text of many lines starts is no part of it. -/
theorem withoutFirstLine_opening {quote : Char} (hquote : isPlain quote = true)
    {written : List Char} (h : '\n' ∉ cs → ∀ c ∈ written.head?, isPlain c = true)
    (rest : List Char) :
    withoutFirstLine (opening cs ++ (written ++ (.replicate 3 quote ++ rest))) =
      written ++ (.replicate 3 quote ++ rest) := by
  unfold opening
  split
  · rfl
  · next hlines =>
    obtain ⟨c, tail, hc, htail⟩ : ∃ c tail, isPlain c = true ∧
        written ++ (.replicate 3 quote ++ rest) = c :: tail := by
      cases written with
      | nil => exact ⟨quote, _, hquote, rfl⟩
      | cons c written => exact ⟨c, _, h (by simpa using hlines) c rfl, rfl⟩
    have hline : newline? (c :: tail) = none := by
      unfold newline?
      split
      · next heq => cases heq; cases hc
      · next heq => cases heq; cases hc
      · rfl
    rw [htail, List.nil_append, withoutFirstLine, hline, Option.getD_none]

theorem readText_double {tail : List Char} (h : ¬ ['\x22', '\x22'] <+: tail) :
    readText ('\x22' :: tail) = basicText [] tail := by
  unfold readText
  split
  · next heq => exact absurd ⟨_, (List.cons.inj heq).2.symm⟩ h
  · next heq => cases heq
  · next heq => cases heq; rfl
  · next heq => cases heq
  · next hne _ => exact absurd rfl (hne tail)

theorem readText_single {tail : List Char} (h : ¬ ['\x27', '\x27'] <+: tail) :
    readText ('\x27' :: tail) = literalText [] tail := by
  unfold readText
  split
  · next heq => cases heq
  · next heq => exact absurd ⟨_, (List.cons.inj heq).2.symm⟩ h
  · next heq => cases heq
  · next heq => cases heq; rfl
  · next hne => exact absurd rfl (hne tail)

theorem not_prefix_quote {quote : Char} {written : List Char}
    (hwritten : ∀ c ∈ written.head?, c ≠ quote) (hrest : ∀ c ∈ rest.head?, c ≠ quote) :
    ¬ [quote, quote] <+: written ++ quote :: rest := by
  rintro ⟨tail, h⟩
  match written, rest with
  | [], [] => cases h
  | [], c :: rest => exact hrest c rfl (by simp_all)
  | c :: written, rest => exact hwritten c rfl (by simp_all)

theorem readText_basic (hrest : ∀ c ∈ rest.head?, c ≠ '\x22') :
    readText ('\x22' :: (escapeAll false 0 0 cs ++ '\x22' :: rest)) = some (cs, rest) := by
  have hwritten : ∀ c ∈ (escapeAll false 0 0 cs).head?, c ≠ '\x22' := by
    rintro c hc rfl
    obtain ⟨tail, htail⟩ := List.head?_eq_some_iff.mp hc
    obtain ⟨-, -, hrun, -⟩ := exists_of_escapeAll_eq_cons htail
    exact Nat.not_lt_zero 0 hrun
  rw [readText_double (not_prefix_quote hwritten hrest), basicText_escapeAll]
  rfl

theorem readText_literal (hrest : ∀ c ∈ rest.head?, c ≠ '\x27') (hform : quotesFor cs = .single) :
    readText ('\x27' :: (cs ++ '\x27' :: rest)) = some (cs, rest) := by
  obtain ⟨hquote, hplain⟩ := quotesFor_single hform
  have hwritten : ∀ c ∈ cs.head?, c ≠ '\x27' := by
    rintro c hc rfl
    exact hquote (List.mem_of_head? hc)
  rw [readText_single (not_prefix_quote hwritten hrest), literalText_append hquote hplain]
  rfl

theorem readText_longBasic (hrest : ∀ c ∈ rest.head?, c ≠ '\x22') :
    readText (.replicate 3 '\x22' ++
      (opening cs ++ (escapeAll true 2 0 cs ++ (.replicate 3 '\x22' ++ rest)))) =
        some (cs, rest) := by
  have hhead (hlines : '\n' ∉ cs) : ∀ c ∈ (escapeAll true 2 0 cs).head?, isPlain c = true :=
    fun c hc => isPlain_head?_escapeAll hlines hc
  refine (congrArg (longBasicText .outside []) (withoutFirstLine_opening rfl hhead rest)).trans ?_
  rw [← List.append_assoc, longBasicText_escapeAll hrest]
  rfl

theorem readText_longLiteral (hrest : ∀ c ∈ rest.head?, c ≠ '\x27')
    (hform : quotesFor cs = .tripleSingle) :
    readText (.replicate 3 '\x27' ++ (opening cs ++ (cs ++ (.replicate 3 '\x27' ++ rest)))) =
      some (cs, rest) := by
  obtain ⟨hrun, hplain⟩ := quotesFor_tripleSingle hform
  have hhead (hlines : '\n' ∉ cs) : ∀ c ∈ cs.head?, isPlain c = true := fun c hc =>
    (hplain c (List.mem_of_head? hc)).resolve_left fun hline =>
      hlines (hline ▸ List.mem_of_head? hc)
  refine (congrArg (longLiteralText []) (withoutFirstLine_opening rfl hhead rest)).trans ?_
  rw [← List.append_assoc, longLiteralText_append hrest hrun hplain]
  rfl

/-- Every text is read back from its written form, whichever is chosen for it. -/
theorem readText_quoteChars (hrest : EndsText rest) :
    readText (quoteChars cs ++ rest) = some (cs, rest) := by
  have hdouble : ∀ c ∈ rest.head?, c ≠ '\x22' := fun c hc => (hrest c hc).1
  have hsingle : ∀ c ∈ rest.head?, c ≠ '\x27' := fun c hc => (hrest c hc).2
  unfold quoteChars
  split <;> simp only [List.cons_append, List.nil_append, List.append_assoc]
  · exact readText_basic hdouble
  · next hform => exact readText_literal hsingle hform
  · exact readText_longBasic hdouble
  · next hform => exact readText_longLiteral hsingle hform

end

end DeviceTrial.Toml
