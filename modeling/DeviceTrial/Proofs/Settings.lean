import DeviceTrial.Proofs.Toml.Documents
import DeviceTrial.Settings.Notation

namespace DeviceTrial.Settings

/-- The integers of the settings. -/
def integers (s : Settings) : List Nat :=
  [s.destination.toNat, s.iterations.toNat, s.patience.toNat, s.wait.toNat, s.limit.toNat]

def document (s : Settings) : Toml.Document := [
  ("fuzzer", [
    ("destination", .integer s.destination.toNat),
    ("iterations", .integer s.iterations.toNat)]),
  ("oracle", [
    ("unreachable-timeout-streak", .integer s.patience.toNat)]),
  ("round", [
    ("subscription-wait-ms", .integer s.wait.toNat),
    ("subscription-timeout-limit", .integer s.limit.toNat),
    ("await-subscriptions", .bool s.awaitReports)]),
  ("snapshot", s.directory.toList.map fun d => ("directory", .text d))]

theorem fits_iff (s : Settings) : s.fits = true ↔ ∀ n ∈ s.integers, n < 2 ^ 63 := by
  have hlargest : largest = 2 ^ 63 - 1 := rfl
  have hpatience : s.patience.toNat < 2 ^ 32 := s.patience.toNat_lt
  have hlimit : s.limit.toNat < 2 ^ 32 := s.limit.toNat_lt
  simp only [fits, hlargest, integers, Bool.and_eq_true, decide_eq_true_eq, List.forall_mem_cons,
    List.not_mem_nil, false_imp_iff, implies_true, and_true]
  omega

variable {s : Settings}

/-- Fields that carry the settings of `s`: what a setting shows is the value of its field, by which
it is set again, leading from one state to the next. A setting that shows nothing has no field. -/
inductive Carries (s : Settings) (known : List Setting) :
    List Setting → Settings → List (String × Toml) → Settings → Prop
  | nil {t last : Settings} (hlast : t = last) : Carries s known [] t [] last
  | shown {f : Setting} {fs : List Setting} {t next last : Settings} {text : String} {v : Toml}
      {fields : List (String × Toml)} (hname : Toml.IsWord f.name)
      (hfind : known.find? (·.name = f.name) = some f) (htext : f.shown s = some text)
      (hvalue : Toml.Shows text.toList v) (hset : f.set t v = some next)
      (hothers : Carries s known fs next fields last) :
      Carries s known (f :: fs) t ((f.name, v) :: fields) last
  | absent {f : Setting} {fs : List Setting} {t last : Settings} {fields : List (String × Toml)}
      (htext : f.shown s = none) (hothers : Carries s known fs t fields last) :
      Carries s known (f :: fs) t fields last

inductive CarriesAll (s : Settings) :
    List (String × List Setting) → Settings → Toml.Document → Settings → Prop
  | nil {t : Settings} : CarriesAll s [] t [] t
  | cons {sec : String × List Setting} {secs : List (String × List Setting)}
      {t last : Settings} {fields : List (String × Toml)} {doc : Toml.Document} (next : Settings)
      (hname : Toml.IsWord sec.1) (hfind : sections.find? (·.1 = sec.1) = some sec)
      (hfields : Carries s sec.2 sec.2 t fields next) (hothers : CarriesAll s secs next doc last) :
      CarriesAll s (sec :: secs) t ((sec.1, fields) :: doc) last

section

variable {known fs : List Setting} {t last : Settings} {fields : List (String × Toml)}

/-- An integer is read back if the format and the setting both hold it. -/
theorem Carries.number {name : String} {get : Settings → Nat} {bound : Nat}
    {set : Settings → Nat → Settings} (hname : Toml.IsWord name)
    (hfind : known.find? (·.name = name) = some (.number name get bound set))
    (hlarge : get s < 2 ^ 63) (hbound : get s < bound)
    (hothers : Carries s known fs (set t (get s)) fields last) :
    Carries s known (.number name get bound set :: fs) t ((name, .integer (get s)) :: fields)
      last := by
  have hset : (Setting.number name get bound set).set t (.integer (get s)) =
      some (set t (get s)) := by
    simp [Setting.number, Toml.natural?, hbound]
  exact .shown hname hfind rfl (Toml.shows_decimal hlarge) hset hothers

theorem Carries.fieldLines (h : Carries s known fs t fields last) :
    Toml.FieldLines (String.join (fs.map s.line)).toList fields := by
  induction h with
  | nil _ => exact .nil
  | @shown f fs _ _ _ text v _ hname _ htext hvalue _ _ ih =>
    have hline : (String.join ((f :: fs).map s.line)).toList = f.name.toList ++
        ' ' :: '=' :: ' ' :: (text.toList ++ '\n' :: (String.join (fs.map s.line)).toList) := by
      simp [String.toList_join, line, htext]
    rw [hline]
    exact .cons hname hvalue ih
  | @absent f fs _ _ _ htext _ ih =>
    have hline : (String.join ((f :: fs).map s.line)).toList =
        (String.join (fs.map s.line)).toList := by
      simp [String.toList_join, line, htext]
    rw [hline]
    exact ih

theorem Carries.readFields (h : Carries s known fs t fields last) :
    readFields known t fields = some last := by
  induction h with
  | nil hlast => exact congrArg some hlast
  | shown _ hfind _ _ hset _ ih =>
    rw [Settings.readFields, hfind]
    exact (congrArg (Option.bind · _) hset).trans ih
  | absent _ _ ih => exact ih

theorem CarriesAll.sectionLines {secs : List (String × List Setting)} {doc : Toml.Document}
    (h : CarriesAll s secs t doc last) :
    List.Forall₂ Toml.SectionLines (secs.map fun sec => (s.block sec).toList) doc := by
  induction h with
  | nil => exact .nil
  | cons _ hname _ hfields _ ih =>
    exact .cons ⟨_, by simp [block], hname, hfields.fieldLines⟩ ih

theorem CarriesAll.readSections {secs : List (String × List Setting)} {doc : Toml.Document}
    (h : CarriesAll s secs t doc last) :
    readSections t (doc.map fun sec => (sec.1, .table sec.2)) = some last := by
  induction h with
  | nil => rfl
  | cons _ _ hfind hfields _ ih =>
    rw [List.map_cons, Settings.readSections, hfind]
    exact (congrArg (Option.bind · _) hfields.readFields).trans ih

end

/-- The sections of a file carry all settings whose integers the format holds. -/
theorem carriesAll_sections (h : ∀ n ∈ s.integers, n < 2 ^ 63) :
    CarriesAll s sections {} s.document s := by
  simp only [integers, List.forall_mem_cons] at h
  obtain ⟨hdestination, hiterations, hpatience, hwait, hlimit, -⟩ := h
  refine .cons { destination := s.destination, iterations := s.iterations } (by decide) rfl ?_ ?_
  · exact .number (by decide) rfl hdestination s.destination.toNat_lt
      (.number (by decide) rfl hiterations s.iterations.toNat_lt (.nil (by simp)))
  refine .cons { destination := s.destination, iterations := s.iterations, patience := s.patience }
    (by decide) rfl ?_ ?_
  · exact .number (by decide) rfl hpatience s.patience.toNat_lt (.nil (by simp))
  refine .cons { s with directory := none } (by decide) rfl ?_ ?_
  · exact .number (by decide) rfl hwait s.wait.toNat_lt
      (.number (by decide) rfl hlimit s.limit.toNat_lt
        (.shown (by decide) rfl rfl (Toml.shows_bool _) rfl (.nil (by simp))))
  refine .cons s (by decide) rfl ?_ .nil
  cases hdirectory : s.directory with
  | none =>
    have hlast : { s with directory := none } = s := by rw [← hdirectory]
    exact .absent (congrArg (Option.map Toml.quote) hdirectory) (.nil hlast)
  | some d =>
    have hlast : { s with directory := some d } = s := by rw [← hdirectory]
    exact .shown (by decide) rfl (congrArg (Option.map Toml.quote) hdirectory) (Toml.shows_quote d)
      rfl (.nil hlast)

theorem distinct_document (s : Settings) : s.document.Distinct where
  sections := by simp [document]
  fields := by
    cases h : s.directory with
    | none => simp [document, h]
    | some d => simp [document, h]

theorem toList_text (s : Settings) : ("\n".intercalate (sections.map s.block)).toList =
    ['\n'].intercalate (sections.map fun sec => (s.block sec).toList) := by
  rw [String.toList_intercalate, List.map_map]
  rfl

/-- Settings whose integers the format holds are read back from their text. -/
theorem exists_toml? (h : ∀ n ∈ s.integers, n < 2 ^ 63) :
    ∃ text, s.toml? = some text ∧ ofText? text = some s := by
  have hcarries := carriesAll_sections h
  have hread := Toml.ofText?_document s.toList_text hcarries.sectionLines s.distinct_document
  refine ⟨_, by rw [toml?, if_pos (s.fits_iff.mpr h)], ?_⟩
  rw [ofText?, hread, Option.bind_eq_bind, Option.bind_some]
  exact hcarries.readSections

example : ({ directory := some "it's" } : Settings).toml? = some
    ("[fuzzer]\ndestination = 1\niterations = 1000\n\n" ++
      "[oracle]\nunreachable-timeout-streak = 2\n\n" ++
      "[round]\nsubscription-wait-ms = 3000\nsubscription-timeout-limit = 3\n" ++
      "await-subscriptions = true\n\n[snapshot]\ndirectory = \x22it's\x22\n") := by
  decide +kernel

/-- Settings are read back whole from the file that is written of them, wherever it lies, unless one
of their integers is too large for the format. Then no file is written of them. -/
theorem ofFile_fileText (s : Settings) (path : String) :
    ((∀ n ∈ s.integers, n < 2 ^ 63) →
      ∃ text, s.fileText = .ok text ∧ Settings.ofFile path (.text text) = .ok s) ∧
    ((∃ n ∈ s.integers, 2 ^ 63 ≤ n) → s.fileText = .error .outOfRange) := by
  constructor
  · intro h
    obtain ⟨text, htext, hread⟩ := exists_toml? h
    refine ⟨text, ?_, ?_⟩
    · rw [fileText, htext]
    · rw [ofFile, hread]
  · rintro ⟨n, hn, hlarge⟩
    have hfits : s.fits = false := by
      rw [← Bool.not_eq_true, fits_iff]
      exact fun h => Nat.not_lt.mpr hlarge (h n hn)
    rw [fileText, toml?, hfits]
    rfl

/-- A directory that has to be escaped over several lines comes back beside the largest integer
there is room for, and one more is refused. -/
theorem ofFile_fileText_largest :
    let s : Settings :=
      { iterations := 9223372036854775807, directory := some "a\\b\n'''c\x22\x22\x22\x7f" }
    let t : Settings := { s with wait := 9223372036854775808 }
    ((∀ n ∈ s.integers, n < 2 ^ 63) ∧ ∃ text, s.fileText = .ok text ∧
      Settings.ofFile "settings.toml" (.text text) = .ok s) ∧
    (∃ n ∈ t.integers, 2 ^ 63 ≤ n) ∧ t.fileText = .error .outOfRange := by
  intro s t
  have hsmall : ∀ n ∈ s.integers, n < 2 ^ 63 := by decide
  have hlarge : ∃ n ∈ t.integers, 2 ^ 63 ≤ n := by decide
  exact ⟨⟨hsmall, (ofFile_fileText s "settings.toml").1 hsmall⟩,
    hlarge, (ofFile_fileText t "settings.toml").2 hlarge⟩

end DeviceTrial.Settings
