import DeviceTrial.Proofs.Toml.Values
import Mathlib.Data.List.Forall2

namespace DeviceTrial.Toml

/-- The sections of a file by their names, each with its fields. -/
abbrev Document := List (String × List (String × Toml))

def setAll (fields : List (String × Toml)) : List Statement :=
  fields.map fun f => .assign [f.1] f.2

namespace Document

def statements (doc : Document) : List Statement :=
  doc.flatMap fun sec => .table [sec.1] :: setAll sec.2

theorem statements_cons (sec : String × List (String × Toml)) (doc : Document) :
    statements (sec :: doc) = .table [sec.1] :: setAll sec.2 ++ statements doc :=
  List.flatMap_cons

structure Distinct (doc : Document) : Prop where
  sections : (doc.map (·.1)).Nodup
  fields : ∀ sec ∈ doc, (sec.2.map (·.1)).Nodup

end Document

/-- The word may stand bare as a key. -/
def IsWord (word : String) : Prop := word.toList ≠ [] ∧ ∀ c ∈ word.toList, isWordChar c = true

instance (word : String) : Decidable (IsWord word) :=
  decidable_of_iff (word.toList ≠ [] ∧ word.toList.all isWordChar = true) (by simp [IsWord])

section

variable {word : String} {rest : List Char}

theorem ne_of_isWordChar {c other : Char} (hc : isWordChar c = true)
    (h : isWordChar other = false) : c ≠ other := by
  rintro rfl
  cases hc.symm.trans h

theorem IsWord.exists_cons (h : IsWord word) :
    ∃ c tail, word.toList = c :: tail ∧ isWordChar c = true := by
  obtain ⟨hne, hword⟩ := h
  obtain ⟨c, tail, heq⟩ := List.exists_cons_of_ne_nil hne
  exact ⟨c, tail, heq, hword c (heq ▸ List.mem_cons_self)⟩

theorem IsWord.skipBlanks_append (h : IsWord word) (rest : List Char) :
    skipBlanks (word.toList ++ rest) = word.toList ++ rest := by
  obtain ⟨c, tail, heq, hc⟩ := h.exists_cons
  have hspace : c ≠ ' ' := ne_of_isWordChar hc (by decide)
  have htab : c ≠ '\t' := ne_of_isWordChar hc (by decide)
  rw [heq, List.cons_append, skipBlanks_cons (by simp [isBlank, hspace, htab])]

theorem keyWord_append (h : IsWord word) (hrest : ∀ c ∈ rest.head?, isWordChar c = false) :
    keyWord (word.toList ++ rest) = some (word, rest) := by
  obtain ⟨c, tail, heq, hc⟩ := h.exists_cons
  have htake : rest.takeWhile isWordChar = [] := by
    cases rest with
    | nil => rfl
    | cons c rest => exact List.takeWhile_cons_of_neg (by simp [hrest c rfl])
  have hdrop : rest.dropWhile isWordChar = rest := by
    cases rest with
    | nil => rfl
    | cons c rest => exact List.dropWhile_cons_of_neg (by simp [hrest c rfl])
  have hword : keyWord (word.toList ++ rest) =
      if ((word.toList ++ rest).takeWhile isWordChar).isEmpty then none
      else some (String.ofList ((word.toList ++ rest).takeWhile isWordChar),
        (word.toList ++ rest).dropWhile isWordChar) := by
    rw [heq, List.cons_append, keyWord]
    all_goals
      intro after h
      exact absurd (List.cons.inj h).1 (ne_of_isWordChar hc (by decide))
  rw [hword, List.takeWhile_append_of_pos h.2, List.dropWhile_append_of_pos h.2, htake, hdrop,
    List.append_nil, String.ofList_toList]
  exact if_neg (by simpa using h.1)

theorem key_append (h : IsWord word) (hhead : ∀ c ∈ rest.head?, isWordChar c = false) {c : Char}
    {tail : List Char} (hrest : skipBlanks rest = c :: tail) (hpoint : c ≠ '.') (fuel : Nat) :
    key (fuel + 1) (word.toList ++ rest) = some ([word], c :: tail) := by
  have hpath : keyPath (fuel + 1) (word.toList ++ rest) = some ([word], c :: tail) := by
    rw [keyPath, h.skipBlanks_append, keyWord_append h hhead]
    simp [hrest, hpoint]
  rw [key, hpath]
  rfl

end

section

variable {name : String} {word rest : List Char} {v : Toml}

theorem statement_header (hname : IsWord name) (fuel : Nat) (rest : List Char) :
    statement (fuel + 1) ('[' :: (name.toList ++ ']' :: '\n' :: rest)) =
      some (.table [name], rest) := by
  obtain ⟨c, tail, heq, hc⟩ := hname.exists_cons
  have hkey : key (fuel + 1) (name.toList ++ ']' :: '\n' :: rest) =
      some ([name], ']' :: '\n' :: rest) :=
    key_append hname (by rintro c ⟨⟩; decide) (skipBlanks_cons (by decide) _) (by decide) fuel
  rw [heq, List.cons_append] at hkey ⊢
  rw [statement]
  · rw [hkey]
    rfl
  · intro after h
    exact absurd (List.cons.inj h).1 (ne_of_isWordChar hc (by decide))

theorem statement_field (hname : IsWord name) (hvalue : Shows word v) (fuel : Nat)
    (rest : List Char) :
    statement (fuel + 1) (name.toList ++ ' ' :: '=' :: ' ' :: (word ++ '\n' :: rest)) =
      some (.assign [name] v, rest) := by
  obtain ⟨c, tail, heq, hc⟩ := hname.exists_cons
  have hassign : assignment (fuel + 1) (valueAt (fuel + 1) deepest)
      (name.toList ++ ' ' :: '=' :: ' ' :: (word ++ '\n' :: rest)) =
        some (([name], v), '\n' :: rest) := by
    have hstart : skipBlanks (' ' :: (word ++ '\n' :: rest)) = word ++ '\n' :: rest :=
      hvalue.starts _
    rw [assignment, key_append hname (by rintro c ⟨⟩; decide) rfl (by decide)]
    simp [hstart, hvalue.valueAt]
  rw [heq, List.cons_append] at hassign ⊢
  rw [statement]
  · rw [hassign]
    rfl
  · intro after h
    exact absurd (List.cons.inj h).1 (ne_of_isWordChar hc (by decide))
  · intro after h
    exact absurd (List.cons.inj h).1 (ne_of_isWordChar hc (by decide))

end

def Reads (cs : List Char) (ss : List Statement) : Prop :=
  ∀ fuel, cs.length < fuel → statements fuel cs = some ss

section

variable {cs rest : List Char} {ss : List Statement}

theorem reads_nil : Reads [] [] := by
  intro fuel hfuel
  obtain ⟨fuel, rfl⟩ := Nat.exists_eq_add_one.mpr hfuel
  rfl

theorem Reads.blank (h : Reads rest ss) : Reads ('\n' :: rest) ss := by
  intro fuel hfuel
  obtain ⟨fuel, rfl⟩ := Nat.exists_eq_add_one.mpr (Nat.zero_lt_of_lt hfuel)
  exact h fuel (Nat.lt_of_succ_lt_succ hfuel)

theorem Reads.cons (h : Reads rest ss) {c : Char} {tail : List Char} {s : Statement}
    (hc : isBlank c = false ∧ c ≠ '#' ∧ c ≠ '\n' ∧ c ≠ '\r')
    (hread : statement (tail.length + 1 + 1) (c :: tail) = some (s, rest))
    (hlength : rest.length ≤ tail.length) : Reads (c :: tail) (s :: ss) := by
  intro fuel hfuel
  obtain ⟨fuel, rfl⟩ := Nat.exists_eq_add_one.mpr (Nat.zero_lt_of_lt hfuel)
  obtain ⟨hblank, hcomment, hline, hreturn⟩ := hc
  have hrest : statements fuel rest = some ss := h fuel (by simp at hfuel; omega)
  rw [statements, skipBlanks_cons hblank]
  simp [hcomment, hline, hreturn, hread, hrest]

inductive FieldLines : List Char → List (String × Toml) → Prop
  | nil : FieldLines [] []
  | cons {name : String} {word lines : List Char} {v : Toml} {fields : List (String × Toml)}
      (hname : IsWord name) (hvalue : Shows word v) (hlines : FieldLines lines fields) :
      FieldLines (name.toList ++ ' ' :: '=' :: ' ' :: (word ++ '\n' :: lines)) ((name, v) :: fields)

/-- The lines of a section: its header and its fields. -/
def SectionLines (block : List Char) (sec : String × List (String × Toml)) : Prop :=
  ∃ lines, block = '[' :: (sec.1.toList ++ ']' :: '\n' :: lines) ∧ IsWord sec.1 ∧
    FieldLines lines sec.2

theorem FieldLines.reads {lines : List Char} {fields : List (String × Toml)}
    (h : FieldLines lines fields) (hrest : Reads rest ss) :
    Reads (lines ++ rest) (setAll fields ++ ss) := by
  induction h with
  | nil => exact hrest
  | @cons name word lines v fields hname hvalue _ ih =>
    obtain ⟨c, tail, heq, hc⟩ := hname.exists_cons
    have hspace : c ≠ ' ' := ne_of_isWordChar hc (by decide)
    have htab : c ≠ '\t' := ne_of_isWordChar hc (by decide)
    have hread (fuel : Nat) := statement_field hname hvalue fuel (lines ++ rest)
    simp only [heq, List.cons_append, List.append_assoc] at hread ⊢
    refine ih.cons ⟨by simp [isBlank, hspace, htab], ne_of_isWordChar hc (by decide),
      ne_of_isWordChar hc (by decide), ne_of_isWordChar hc (by decide)⟩ (hread _) ?_
    simp only [List.length_append, List.length_cons]
    omega

theorem SectionLines.reads {block : List Char} {sec : String × List (String × Toml)}
    (h : SectionLines block sec) (hrest : Reads rest ss) :
    Reads (block ++ rest) (.table [sec.1] :: setAll sec.2 ++ ss) := by
  obtain ⟨lines, rfl, hname, hlines⟩ := h
  have hread (fuel : Nat) := statement_header hname fuel (lines ++ rest)
  simp only [List.cons_append, List.append_assoc] at hread ⊢
  refine (hlines.reads hrest).cons (by decide) (hread _) ?_
  simp only [List.length_append, List.length_cons]
  omega

/-- Sections with an empty line between them are read as the statements of a document. -/
theorem reads_document {blocks : List (List Char)} {doc : Document}
    (h : List.Forall₂ SectionLines blocks doc) :
    Reads (['\n'].intercalate blocks) doc.statements := by
  induction h with
  | nil => exact reads_nil
  | @cons block sec blocks doc hblock hblocks ih =>
    rw [Document.statements_cons]
    cases hblocks with
    | nil => simpa [Document.statements] using hblock.reads reads_nil
    | @cons next _ blocks _ _ _ =>
      have htext : ['\n'].intercalate (block :: next :: blocks) =
          block ++ '\n' :: ['\n'].intercalate (next :: blocks) := by
        simp [List.intercalate]
      rw [htext]
      exact hblock.reads ih.blank

end

namespace Entries

variable {es : Entries} {word : String} {item : Item}

theorem get?_eq_none_iff : get? word es = none ↔ word ∉ es.map (·.1) := by
  induction es with
  | nil => simp [get?]
  | cons e es ih =>
    by_cases h : e.1 = word
    · simp [get?, h]
    · simp [get?, h, ih, Ne.symm h]

theorem get?_append_of_notMem (h : word ∉ es.map (·.1)) :
    get? word (es ++ [(word, item)]) = some item := by
  induction es with
  | nil => exact if_pos rfl
  | cons e es ih =>
    obtain ⟨hne, h⟩ := not_or.mp (List.mem_cons.not.mp h)
    exact (if_neg (Ne.symm hne)).trans (ih h)

theorem put_of_notMem (h : word ∉ es.map (·.1)) : put word item es = es ++ [(word, item)] := by
  induction es with
  | nil => rfl
  | cons e es ih =>
    obtain ⟨hne, h⟩ := not_or.mp (List.mem_cons.not.mp h)
    rw [put, if_neg (Ne.symm hne), ih h, List.cons_append]

theorem put_append_of_notMem (h : word ∉ es.map (·.1)) (old : Item) :
    put word item (es ++ [(word, old)]) = es ++ [(word, item)] := by
  induction es with
  | nil => exact if_pos rfl
  | cons e es ih =>
    obtain ⟨hne, h⟩ := not_or.mp (List.mem_cons.not.mp h)
    rw [List.cons_append, put, if_neg (Ne.symm hne), ih h, List.cons_append]

/-- The header of a section that is not there yet opens an empty one at the end. -/
theorem take_table (h : word ∉ es.map (·.1)) (opened : List String) :
    take opened es (.table [word]) = some ([word], es ++ [(word, .table .header [])]) := by
  have hopen : openTable word es = some (es ++ [(word, .table .header [])]) := by
    rw [openTable, get?_eq_none_iff.mpr h]
    exact congrArg some (put_of_notMem h)
  exact congrArg (Option.map ([word], ·)) hopen

theorem take_assign {key : String} {inner : Entries} (h : word ∉ es.map (·.1))
    (hkey : key ∉ inner.map (·.1)) (v : Toml) :
    take [word] (es ++ [(word, .table .header inner)]) (.assign [key] v) =
      some ([word], es ++ [(word, .table .header (inner ++ [(key, .value v)]))]) := by
  have hassign : assign [key] v inner = some (inner ++ [(key, .value v)]) := by
    have hnone : (get? key inner).isSome = false := by rw [get?_eq_none_iff.mpr hkey]; rfl
    have hput : put key (.value v) inner = inner ++ [(key, .value v)] := put_of_notMem hkey
    simp [assign, update, hnone, hput]
  simp [take, update, get?_append_of_notMem h, hassign, put_append_of_notMem h]

def ofFields (fields : List (String × Toml)) : Entries := fields.map fun f => (f.1, .value f.2)

theorem takeAll_fields {fields : List (String × Toml)} (h : word ∉ es.map (·.1)) {inner : Entries}
    (hkeys : (inner.map (·.1) ++ fields.map (·.1)).Nodup) (ss : List Statement) :
    takeAll [word] (es ++ [(word, .table .header inner)]) (setAll fields ++ ss) =
      takeAll [word] (es ++ [(word, .table .header (inner ++ ofFields fields))]) ss := by
  induction fields generalizing inner with
  | nil => simp [setAll, ofFields]
  | cons f fields ih =>
    have hkey : f.1 ∉ inner.map (·.1) := by
      intro hmem
      exact (List.nodup_append.mp hkeys).2.2 f.1 hmem f.1 (by simp) rfl
    rw [setAll, List.map_cons, List.cons_append, takeAll, take_assign h hkey]
    refine (ih (by simpa using hkeys)).trans ?_
    rw [List.append_assoc]
    rfl

end Entries

namespace Document

def entries (doc : Document) : Entries :=
  doc.map fun sec => (sec.1, .table .header (Entries.ofFields sec.2))

theorem toml_entries (doc : Document) :
    Entries.toml doc.entries = doc.map fun sec => (sec.1, .table sec.2) := by
  have hfields (fields : List (String × Toml)) :
      Entries.fieldsOf (Entries.ofFields fields) = fields := by
    rw [Entries.ofFields]
    induction fields with
    | nil => rw [List.map_nil, Entries.fieldsOf]
    | cons f fields ih =>
      rw [List.map_cons, Entries.fieldsOf, ih, Entries.fieldOf, Entries.tomlOf]
  rw [Entries.toml]
  induction doc with
  | nil => rw [entries, List.map_nil, Entries.fieldsOf, List.map_nil]
  | cons sec doc ih =>
    rw [entries] at ih ⊢
    rw [List.map_cons, Entries.fieldsOf, ih, Entries.fieldOf, Entries.tomlOf, hfields,
      List.map_cons]

theorem takeAll_statements {doc : Document} (hfields : ∀ sec ∈ doc, (sec.2.map (·.1)).Nodup)
    (es : Entries) (hnames : (es.map (·.1) ++ doc.map (·.1)).Nodup) (opened : List String) :
    Entries.takeAll opened es doc.statements = some (es ++ doc.entries) := by
  induction doc generalizing es opened with
  | nil => exact congrArg some (List.append_nil es).symm
  | cons sec doc ih =>
    obtain ⟨hsec, hfields⟩ := List.forall_mem_cons.mp hfields
    -- each section opens a table that is not there yet
    have hname : sec.1 ∉ es.map (·.1) := by
      intro hmem
      exact (List.nodup_append.mp hnames).2.2 sec.1 hmem sec.1 (by simp) rfl
    rw [statements_cons, List.cons_append, Entries.takeAll, Entries.take_table hname]
    refine (Entries.takeAll_fields hname (by simpa using hsec) _).trans ?_
    refine (ih hfields _ (by simpa using hnames) _).trans ?_
    rw [List.append_assoc]
    rfl

end Document

/-- A document is read as what its sections hold. -/
theorem ofText?_document {text : String} {blocks : List (List Char)} {doc : Document}
    (htext : text.toList = ['\n'].intercalate blocks)
    (h : List.Forall₂ SectionLines blocks doc) (hdoc : doc.Distinct) :
    ofText? text = some (doc.map fun sec => (sec.1, .table sec.2)) := by
  have hmark (cs : List Char) : text.toList ≠ '\ufeff' :: cs := by
    rw [htext]
    cases h with
    | nil => exact (List.cons_ne_nil _ _).symm
    | @cons block _ blocks _ hblock _ =>
      obtain ⟨lines, rfl, -⟩ := hblock
      cases blocks <;> simp [List.intercalate]
  have hread : statements (text.toList.length + 1) text.toList = some doc.statements :=
    htext ▸ reads_document h _ (Nat.lt_succ_self _)
  have htable : Entries.ofStatements? doc.statements = some doc.entries :=
    Document.takeAll_statements hdoc.fields [] hdoc.sections []
  rw [ofText?]
  split
  · next cs hcs => exact absurd hcs (hmark cs)
  · simp [hread, htable, Document.toml_entries]

end DeviceTrial.Toml
