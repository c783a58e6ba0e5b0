import DeviceTrial.Proofs.Campaign.Failures
import DeviceTrial.Proofs.Text.Numerals
import DeviceTrial.Proofs.Text.Parts

namespace DeviceTrial

namespace Status

/-- No status has two names, and no name is taken for the text of one that has none or for the text
of no answer. -/
theorem names_distinct : ∀ x ∈ names, '(' ∉ x.2.toList ∧ x.2.toList.head? ≠ some 'n' ∧
    ∀ y ∈ names, x.2 = y.2 → x.1 = y.1 := by
  decide +kernel

theorem describe_of_not_isNamed {s : Status} (h : s.isNamed = false) :
    s.describe = "Unknown(" ++ Numeral.marked 2 s.code.toNat ++ ")" := by
  have hnone : s.name? = none := by simpa [isNamed] using h
  rw [describe, hnone, Option.getD_none]

theorem bracket_mem_describe_iff (s : Status) : '(' ∈ s.describe.toList ↔ s.isNamed = false := by
  cases h : s.isNamed with
  | false =>
    rw [describe_of_not_isNamed h]
    simp
  | true => simpa using (names_distinct _ (mem_names h)).1

theorem describe_inj {s t : Status} (h : s.describe = t.describe) : s = t := by
  have hnamed : s.isNamed = t.isNamed := by
    rw [Bool.eq_iff_iff, ← not_iff_not, Bool.not_eq_true, Bool.not_eq_true,
      ← bracket_mem_describe_iff, h, bracket_mem_describe_iff]
  have hcode : s.code = t.code := by
    cases hs : s.isNamed with
    | false =>
      rw [describe_of_not_isNamed hs, describe_of_not_isNamed (hnamed.symm.trans hs),
        String.append_left_inj, String.append_right_inj] at h
      exact UInt8.toNat_inj.mp (Numeral.marked_inj h)
    | true =>
      have ht := mem_names (hnamed.symm.trans hs)
      exact (names_distinct _ (mem_names hs)).2.2 _ ht h
  obtain ⟨code⟩ := s
  obtain ⟨other⟩ := t
  exact congrArg Status.mk hcode

theorem head?_describe (s : Status) : s.describe.toList.head? ≠ some 'n' := by
  cases h : s.isNamed with
  | false =>
    rw [describe_of_not_isNamed h]
    simp
  | true => exact (names_distinct _ (mem_names h)).2.1

end Status

namespace Observation

theorem answer_inj {a b : Option Status} (h : answer a = answer b) : a = b := by
  have hnone (s : Status) : answer (some s) ≠ answer none := by
    intro heq
    have hhead : s.describe.toList.head? = some 'n' := congrArg (·.toList.head?) heq
    exact s.head?_describe hhead
  cases a with
  | none =>
    cases b with
    | none => rfl
    | some t => exact (hnone t h.symm).elim
  | some s =>
    cases b with
    | none => exact (hnone s h).elim
    | some t => exact congrArg some (Status.describe_inj h)

end Observation

theorem CommandKind.verb_inj {k l : CommandKind} (h : k.verb = l.verb) : k = l := by
  revert h
  cases k <;> cases l <;> decide

theorem Hex.encode_inj {v w : List UInt8} (h : encode v = encode w) : v = w := by
  have hv := decode_encode_eq_ok v
  rw [h, decode_encode_eq_ok] at hv
  exact (Except.ok.inj hv).symm

theorem Hex.blank_notMem_encode (v : List UInt8) : ' ' ∉ (encode v).toList := by
  intro hblank
  obtain ⟨d, hd⟩ := (spells_encode v).digit?_of_mem hblank
  cases hd

namespace TestCase

/-- What stands between the blanks of a line, up to its answer. -/
def fields (case : TestCase) : List (List Char) :=
  [case.path.kind.verb.toList, "e=".toList ++ (Numeral.decimal case.path.endpoint.toNat).toList,
    "c=".toList ++ (Numeral.marked 4 case.path.cluster.toNat).toList,
    "id=".toList ++ (Numeral.marked 4 case.path.id.toNat).toList,
    "payload=".toList ++ (Hex.encode case.payload).toList, "->".toList]

theorem fields_inj {case other : TestCase} (h : case.fields = other.fields) : case = other := by
  obtain ⟨⟨kind, endpoint, cluster, id⟩, payload⟩ := case
  obtain ⟨⟨kind', endpoint', cluster', id'⟩, payload'⟩ := other
  simp only [fields, List.cons.injEq, List.append_cancel_left_eq, String.toList_inj, and_true] at h
  obtain ⟨hkind, hendpoint, hcluster, hid, hpayload⟩ := h
  obtain rfl := CommandKind.verb_inj hkind
  obtain rfl := UInt16.toNat_inj.mp (Numeral.decimal_inj hendpoint)
  obtain rfl := UInt32.toNat_inj.mp (Numeral.marked_inj hcluster)
  obtain rfl := UInt32.toNat_inj.mp (Numeral.marked_inj hid)
  obtain rfl := Hex.encode_inj hpayload
  rfl

theorem blank_notMem_fields (case : TestCase) : ∀ field ∈ case.fields, ' ' ∉ field := by
  have hverb : ' ' ∉ case.path.kind.verb.toList := by
    cases case.path.kind <;> decide
  simp [fields, hverb, Numeral.blank_notMem_decimal, Numeral.blank_notMem_marked,
    Hex.blank_notMem_encode]

theorem parts_historyLine (case : TestCase) (response : Option Status) :
    Text.parts ' ' (case.historyLine response).toList =
      case.fields ++ Text.parts ' ' (Observation.answer response).toList := by
  have hline : (case.historyLine response).toList =
      case.fields.foldr (fun field rest => field ++ ' ' :: rest)
        (Observation.answer response).toList := by
    simp [historyLine, CommandPath.describe, fields]
  have hparts (fields : List (List Char)) (h : ∀ field ∈ fields, ' ' ∉ field) (rest : List Char) :
      Text.parts ' ' (fields.foldr (fun field rest => field ++ ' ' :: rest) rest) =
        fields ++ Text.parts ' ' rest := by
    induction fields with
    | nil => rfl
    | cons field fields ih =>
      obtain ⟨hfield, hfields⟩ := List.forall_mem_cons.mp h
      rw [List.foldr_cons, Text.parts_append_cons hfield, ih hfields]
      rfl
  rw [hline, hparts _ case.blank_notMem_fields]

theorem historyLine_inj {case other : TestCase} {a b : Option Status}
    (h : case.historyLine a = other.historyLine b) : case = other ∧ a = b := by
  have hparts := parts_historyLine case a
  rw [h, parts_historyLine] at hparts
  have hlength : other.fields.length = case.fields.length := by simp [fields]
  obtain ⟨hfields, hanswer⟩ := List.append_inj hparts hlength
  have hanswer := String.toList_inj.mp (Text.parts_inj hanswer)
  exact ⟨(fields_inj hfields).symm, (Observation.answer_inj hanswer).symm⟩

end TestCase

namespace Campaign

variable {σ : Type}

def lines (played : List (TestCase × Option Status)) : List String :=
  played.map fun p => p.1.historyLine p.2

theorem lines_inj {xs ys : List (TestCase × Option Status)} (h : lines xs = lines ys) :
    xs = ys := by
  refine List.map_injective_iff.mpr ?_ h
  rintro ⟨case, a⟩ ⟨other, b⟩ hline
  obtain ⟨rfl, rfl⟩ := TestCase.historyLine_inj hline
  rfl

theorem value_conclude (c : Campaign) (round : Nat) (case : TestCase) (outcome : RoundOutcome)
    (response : Option Status) : (c.conclude round case outcome response).value =
      (if c.bench.judge.current = .unreachable then .error (.unreachable round)
        else .ok ⟨round, outcome, response, c.bench.judge.current⟩,
        { c with history := c.history ++ [case.historyLine response] }) := by
  unfold conclude
  simp only [Told.value_bind]
  split <;> rfl

/-- Whatever the device does, the history is left as it is by a case that is not played to its end,
and any other adds the line of its answer. -/
theorem history_runCase (d : Device σ) (c : Campaign) (state : σ) (case : TestCase) :
    let played := (c.runCase d state case).value
    played.2.1.history = c.history ∧ (∃ fault, played.1 = .error (.round fault)) ∨
      ∃ response, played.2.1.history = c.history ++ [case.historyLine response] ∧
        ((∃ round, played.1 = .error (.unreachable round)) ∨
          ∃ round outcome verdict, played.1 = .ok ⟨round, outcome, response, verdict⟩) := by
  intro played
  have hplayed : played = (c.runCase d state case).value := rfl
  rw [runCase] at hplayed
  cases hstart : c.bench.rounds.start .own with
  | error fault =>
    rw [hstart] at hplayed
    exact .inl (hplayed ▸ ⟨rfl, fault, rfl⟩)
  | ok started =>
    simp only [hstart, Told.value_bind] at hplayed
    generalize (drive d { c.bench with rounds := started.value.2 } state c.settings
      started.value.1 case).value = driven at hplayed
    obtain ⟨⟨fault⟩ | ⟨outcome, response⟩, bench, next⟩ := driven
    · exact .inl (hplayed ▸ ⟨rfl, fault, rfl⟩)
    · simp only [Told.value_bind] at hplayed
      generalize (release bench.rounds).value = released at hplayed
      obtain ⟨_ | fault, rounds⟩ := released
      · simp only [Told.value_bind, value_conclude, Told.value_pure] at hplayed
        refine .inr ⟨response, hplayed ▸ rfl, ?_⟩
        rw [hplayed]
        dsimp only
        split
        · exact .inl ⟨_, rfl⟩
        · exact .inr ⟨_, _, _, rfl⟩
      · exact .inl (hplayed ▸ ⟨rfl, fault, rfl⟩)

/-- A line tells the path and the payload of a case and the answer to it, whichever it is, so lines
that stand in a history tell what was played, in its order. Of every case that is played to its end,
whatever the device does, the history gets the line of the answer that is reported, and of no other
case a line. -/
theorem historyLine_identifies (case other : TestCase) (a b : Option Status)
    (xs ys : List (TestCase × Option Status)) (d : Device σ) (c : Campaign) (state : σ) :
    (case.historyLine a = other.historyLine b ↔
      case.path = other.path ∧ case.payload = other.payload ∧ a = b) ∧
    (lines xs = lines ys ↔ xs = ys) ∧
    let played := (c.runCase d state case).value
    played.2.1.history = c.history ∧ (∃ fault, played.1 = .error (.round fault)) ∨
      ∃ response, played.2.1.history = c.history ++ [case.historyLine response] ∧
        ((∃ round, played.1 = .error (.unreachable round)) ∨
          ∃ round outcome verdict, played.1 = .ok ⟨round, outcome, response, verdict⟩) := by
  refine ⟨⟨fun h => ?_, ?_⟩, ⟨lines_inj, congrArg lines⟩, history_runCase d c state case⟩
  · obtain ⟨rfl, rfl⟩ := TestCase.historyLine_inj h
    exact ⟨rfl, rfl, rfl⟩
  · obtain ⟨path, payload⟩ := case
    rintro ⟨rfl, rfl, rfl⟩
    rfl

example : (TestCase.mk ⟨.write, 1, 0xFFF1FC00, 2⟩ []).historyLine (some ⟨0x42⟩) =
    "write e=1 c=0xfff1fc00 id=0x0002 payload= -> Unknown(0x42)" := by decide

end Campaign

end DeviceTrial
