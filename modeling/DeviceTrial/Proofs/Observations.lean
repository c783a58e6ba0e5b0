import Mathlib.Data.List.Induction
import DeviceTrial.Observation
import DeviceTrial.Proofs.Envelope.Image
import DeviceTrial.Proofs.History
import DeviceTrial.Proofs.SortedMap

namespace DeviceTrial

theorem SortedSet.ext_keys {κ : Type} [Ranked κ] {s t : SortedSet κ} (h : s.keys = t.keys) :
    s = t := by
  obtain ⟨es, hes⟩ := s
  obtain ⟨fs, hfs⟩ := t
  have heq : es = fs := (List.map_inj_right fun _ _ hkey => Prod.ext hkey rfl).mp h
  subst heq
  rfl

theorem littleEndian_append_inj {count n m : Nat} (hn : n < Nat.pow 256 count)
    (hm : m < Nat.pow 256 count) {us vs : List UInt8}
    (h : littleEndian count n ++ us = littleEndian count m ++ vs) : n = m ∧ us = vs := by
  obtain ⟨hwords, hrest⟩ := List.append_inj h (by simp)
  refine ⟨?_, hrest⟩
  rw [← (isWord_littleEndian hn).2, hwords, (isWord_littleEndian hm).2]

namespace Observation

/-- The observations differ in nothing but the number of the round. -/
structure SameBehaviour (o o' : Observation) : Prop where
  path : o.path = o'.path
  status : o.status = o'.status
  changed : o.changed = o'.changed

theorem pathBytes_append_inj {p q : AttributePath} {us vs : List UInt8}
    (h : pathBytes p ++ us = pathBytes q ++ vs) : p = q ∧ us = vs := by
  simp only [pathBytes, List.append_assoc] at h
  obtain ⟨hnode, h⟩ := littleEndian_append_inj p.node.toNat_lt q.node.toNat_lt h
  obtain ⟨hendpoint, h⟩ := littleEndian_append_inj p.endpoint.toNat_lt q.endpoint.toNat_lt h
  obtain ⟨hcluster, h⟩ := littleEndian_append_inj p.cluster.toNat_lt q.cluster.toNat_lt h
  obtain ⟨hid, hrest⟩ := littleEndian_append_inj p.id.toNat_lt q.id.toNat_lt h
  refine ⟨?_, hrest⟩
  rw [AttributePath.mk.injEq]
  exact ⟨UInt64.toNat_inj.mp hnode, UInt16.toNat_inj.mp hendpoint, UInt32.toNat_inj.mp hcluster,
    UInt32.toNat_inj.mp hid⟩

theorem flatMap_pathBytes_inj {ps qs : List AttributePath}
    (h : ps.flatMap pathBytes = qs.flatMap pathBytes) : ps = qs := by
  have hne (p : AttributePath) : pathBytes p ≠ [] := by simp [pathBytes, littleEndian]
  induction ps generalizing qs with
  | nil =>
    cases qs with
    | nil => rfl
    | cons q qs => simp [hne] at h
  | cons p ps ih =>
    cases qs with
    | nil => simp [hne] at h
    | cons q qs =>
      rw [List.flatMap_cons, List.flatMap_cons] at h
      obtain ⟨rfl, hrest⟩ := pathBytes_append_inj h
      rw [ih hrest]

theorem kindByte_inj {k k' : CommandKind} (h : kindByte k = kindByte k') : k = k' := by
  cases k <;> cases k' <;> first | rfl | cases h

def statusBytes : Option Status → List UInt8
  | some s => [1, s.code]
  | none => [0, 0]

theorem statusBytes_append_inj {s s' : Option Status} {us vs : List UInt8}
    (h : statusBytes s ++ us = statusBytes s' ++ vs) : s = s' ∧ us = vs := by
  cases s with
  | none =>
    cases s' with
    | none => exact ⟨rfl, List.append_cancel_left h⟩
    | some t' => cases h
  | some t =>
    cases s' with
    | none => cases h
    | some t' =>
      cases t
      cases h
      exact ⟨rfl, rfl⟩

theorem canonical_eq (o : Observation) :
    o.canonical = littleEndian 2 o.path.endpoint.toNat ++ (littleEndian 4 o.path.cluster.toNat ++
      (littleEndian 4 o.path.id.toNat ++ (kindByte o.path.kind :: (statusBytes o.status ++
        o.changed.keys.flatMap pathBytes)))) := by
  simp only [canonical, List.append_assoc]
  cases o.status <;> rfl

/-- Observations have the same bytes exactly if they are of the same behaviour. -/
theorem canonical_eq_iff {o o' : Observation} :
    o.canonical = o'.canonical ↔ o.SameBehaviour o' := by
  constructor
  · intro h
    rw [canonical_eq, canonical_eq] at h
    obtain ⟨hendpoint, h⟩ :=
      littleEndian_append_inj o.path.endpoint.toNat_lt o'.path.endpoint.toNat_lt h
    obtain ⟨hcluster, h⟩ :=
      littleEndian_append_inj o.path.cluster.toNat_lt o'.path.cluster.toNat_lt h
    obtain ⟨hid, h⟩ := littleEndian_append_inj o.path.id.toNat_lt o'.path.id.toNat_lt h
    obtain ⟨hkind, h⟩ := List.cons.inj h
    obtain ⟨hstatus, hchanged⟩ := statusBytes_append_inj h
    refine ⟨?_, hstatus, SortedSet.ext_keys (flatMap_pathBytes_inj hchanged)⟩
    rw [CommandPath.mk.injEq]
    exact ⟨kindByte_inj hkind, UInt16.toNat_inj.mp hendpoint, UInt32.toNat_inj.mp hcluster,
      UInt32.toNat_inj.mp hid⟩
  · intro ⟨hpath, hstatus, hchanged⟩
    rw [canonical, hpath, hstatus, hchanged, canonical]

end Observation

inductive LogCall where
  | record (o : Observation)
  | drain

namespace LogCall

def observation? : LogCall → Option Observation
  | record o => some o
  | drain => none

end LogCall

namespace ObservationLog

def after (l : ObservationLog) : LogCall → ObservationLog
  | .record o => l.record o
  | .drain => l.drain.2

def of (calls : List LogCall) : ObservationLog := calls.foldl after empty

/-- All observations that the calls record, kept or not. -/
def recorded (calls : List LogCall) : List Observation := calls.filterMap LogCall.observation?

/-- The observations whose recordings were answered so that they are kept. -/
def news (calls : List LogCall) : List Observation :=
  transcript (fun past call => call.observation?.filter fun o => ((of past).record o).isNew) calls

/-- What each draining took out. -/
def batches (calls : List LogCall) : List (List Observation) :=
  transcript (fun past call => match call with
    | .record _ => none
    | .drain => some (of past).drain.1) calls

theorem of_concat (calls : List LogCall) (call : LogCall) :
    of (calls ++ [call]) = (of calls).after call :=
  List.foldl_append ..

theorem recorded_concat (calls : List LogCall) (call : LogCall) :
    recorded (calls ++ [call]) = recorded calls ++ call.observation?.toList := by
  rw [recorded, List.filterMap_append]
  cases call <;> rfl

theorem isNew_record (l : ObservationLog) (o : Observation) :
    (l.record o).isNew = !l.knows o := by
  cases h : l.knows o <;> simp [record, h]

theorem knows_record_iff {l : ObservationLog} {new o : Observation} :
    (l.record new).knows o = true ↔ l.knows o = true ∨ new.digest = o.digest := by
  unfold record
  split
  · rename_i hknown
    refine ⟨.inl, ?_⟩
    rintro (h | h)
    · exact h
    · rwa [knows, ← h]
  · rw [knows, List.contains_cons, Bool.or_eq_true, beq_iff_eq, or_comm, @eq_comm _ o.digest]
    rfl

theorem records_record (l : ObservationLog) (o : Observation) :
    (l.record o).records = l.records ++ ((some o).filter fun o => !l.knows o).toList := by
  cases h : l.knows o <;> simp [record, h, Option.filter]

/-- The log knows the digests of all observations that it was given, also of those that have been
taken out. -/
theorem knows_of_iff {calls : List LogCall} {o : Observation} :
    (of calls).knows o = true ↔ ∃ o' ∈ recorded calls, o'.digest = o.digest := by
  induction calls using List.reverseRecOn with
  | nil => simp [of, empty, knows, recorded]
  | append_singleton calls call ih =>
    rw [of_concat, recorded_concat]
    cases call with
    | drain =>
      rw [LogCall.observation?, Option.toList_none, List.append_nil]
      exact ih
    | record new =>
      refine knows_record_iff.trans ?_
      rw [ih, LogCall.observation?, Option.toList_some]
      simp only [List.mem_append, List.mem_singleton, or_and_right, exists_or, exists_eq_left]

/-- What was taken out and what is still there are the observations that were kept. -/
theorem flatten_batches_append (calls : List LogCall) :
    (batches calls).flatten ++ (of calls).records = news calls := by
  induction calls using List.reverseRecOn with
  | nil => rfl
  | append_singleton calls call ih =>
    rw [of_concat, batches, news, transcript_concat, transcript_concat, ← batches, ← news, ← ih]
    cases call with
    | drain => simp [after, drain, LogCall.observation?]
    | record o => simp [after, records_record, isNew_record, LogCall.observation?]

/-- The log keeps the first observation of every behaviour, whatever is taken out in between. An
observation is kept exactly if none of those before it, taken out or not, is of the same behaviour,
and what was taken out and what is still there are just the observations that were kept, in their
order; nothing that was taken out is still there. This needs digests that tell apart the bytes of
the observations; the bytes tell behaviours apart, however many changes there are. -/
theorem of_keeps_first (calls : List LogCall)
    (hdigest : ∀ o ∈ recorded calls, ∀ o' ∈ recorded calls,
      o.digest = o'.digest → o.canonical = o'.canonical) :
    (∀ past o later, calls = past ++ .record o :: later →
      (((of past).record o).isNew = true ↔ ∀ o' ∈ recorded past, ¬ o'.SameBehaviour o)) ∧
      (∀ past later, calls = past ++ .drain :: later → (of past).drain.2.records = []) ∧
      (batches calls).flatten ++ (of calls).records = news calls ∧
      ∀ o o' : Observation, o.canonical = o'.canonical ↔ o.SameBehaviour o' := by
  refine ⟨fun past o later hcalls => ?_, fun past later hcalls => rfl,
    flatten_batches_append calls, fun o o' => Observation.canonical_eq_iff⟩
  have hrecorded : recorded calls = recorded past ++ o :: recorded later := by
    rw [hcalls, recorded, List.filterMap_append, List.filterMap_cons]
    rfl
  have hsame (o' : Observation) (h : o' ∈ recorded past) :
      o'.digest = o.digest ↔ o'.SameBehaviour o := by
    rw [← Observation.canonical_eq_iff]
    constructor
    · refine hdigest o' ?_ o ?_
      · rw [hrecorded]
        exact List.mem_append_left _ h
      · rw [hrecorded]
        exact List.mem_append_right _ List.mem_cons_self
    · exact congrArg Digest.md5
  rw [isNew_record, Bool.not_eq_true', ← Bool.not_eq_true, knows_of_iff]
  simp only [not_exists, not_and]
  exact forall₂_congr fun o' h => not_congr (hsame o' h)

/-- The same behaviour is seen again in a later round, after the first observation of it was taken
out, and then with one change more. -/
theorem of_keeps_first_drained :
    let p : CommandPath := ⟨.invoke, 1, 6, 2⟩
    let one : SortedSet AttributePath := .ofList [⟨1, 1, 6, 0⟩]
    let two : SortedSet AttributePath := .ofList [⟨1, 1, 6, 0⟩, ⟨1, 1, 8, 0⟩]
    let first : Observation := ⟨0, p, some .success, one⟩
    let again : Observation := ⟨1, p, some .success, one⟩
    let other : Observation := ⟨2, p, some .success, two⟩
    let past : List LogCall := [.record first, .drain]
    (of past).records = [] ∧ ((of past).record again).isNew = false ∧
      ((of (past ++ [.record again])).record other).isNew = true ∧
      ((batches (past ++ [.record again, .record other])).flatten ++
        (of (past ++ [.record again, .record other])).records).map (·.round) = [0, 2] := by
  intro p one two first again other past
  have hdigest : ∀ o ∈ recorded (past ++ [.record again, .record other]),
      ∀ o' ∈ recorded (past ++ [.record again, .record other]),
        o.digest = o'.digest → o.canonical = o'.canonical := by decide +kernel
  obtain ⟨hnew, htaken, hkept, -⟩ := of_keeps_first _ hdigest
  have hsame : first.SameBehaviour again := ⟨rfl, rfl, rfl⟩
  have hchanged : one ≠ two := fun h => absurd (congrArg SortedMap.size h) (by decide)
  refine ⟨htaken [.record first] _ rfl, ?_, ?_, ?_⟩
  · refine Bool.eq_false_iff.mpr fun hkeeps => ?_
    exact (hnew past again [.record other] rfl).mp hkeeps first (List.mem_singleton_self _) hsame
  · have hsplit := List.append_cons past (.record again) [.record other]
    have hother := hnew (past ++ [.record again]) other [] hsplit
    have hearlier : ∀ o ∈ recorded (past ++ [.record again]), o.changed = one := by
      simp [recorded, past, LogCall.observation?, first, again]
    exact hother.mpr fun o ho hsame => hchanged ((hearlier o ho).symm.trans hsame.changed)
  · refine (congrArg (List.map (·.round)) hkept).trans ?_
    decide +kernel

end ObservationLog

end DeviceTrial
