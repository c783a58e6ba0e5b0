import DeviceTrial.Proofs.Snapshot.Restore
import DeviceTrial.Proofs.Store.Calls

namespace DeviceTrial

theorem Signature.accepts_eq_false_iff {s : Signature} {v : Element} : s.accepts v = false ↔
    s.kind ≠ v.kind ∨ s.kind ∈ [Kind.signed, .unsigned, .float] ∧ s.width ≠ v.width := by
  obtain ⟨kind, width⟩ := s
  rw [accepts, Bool.and_eq_false_iff]
  refine or_congr (by simp) ?_
  cases kind <;> simp

namespace Attribute

variable {a b : Attribute} {v : Element}

theorem eq_of_write (h : a.write v = .ok b) :
    b = { a.shift v with
      signature := a.signature.or (if v.kind = .null then none else some (.ofElement v))
      nullable := a.nullable || decide (v.kind = .null) } := by
  unfold Attribute.write at h
  by_cases hv : v.kind = .null
  · rw [if_pos hv] at h
    cases h
    simp [hv, shift]
  · rw [if_neg hv] at h
    split at h
    · next hsignature =>
      cases h
      simp [hv, shift, hsignature]
    · next hsignature =>
      split at h
      · cases h
        simp [hv, shift, hsignature]
      · cases h

theorem write_eq_error_iff {s : Signature} : a.write v = .error s ↔
    a.signature = some s ∧ v.kind ≠ .null ∧ s.accepts v = false := by
  unfold Attribute.write
  by_cases hv : v.kind = .null
  · simp [hv]
  · rw [if_neg hv]
    cases a.signature with
    | none => simp
    | some t =>
      cases ht : t.accepts v with
      | true =>
        simp only [ht, if_true, Option.some.injEq]
        constructor
        · intro h
          cases h
        · rintro ⟨rfl, -, hs⟩
          rw [ht] at hs
          cases hs
      | false =>
        simp only [ht, Option.some.injEq]
        constructor
        · intro h
          cases h
          exact ⟨rfl, hv, ht⟩
        · rintro ⟨rfl, -, -⟩
          rfl

end Attribute

structure AttributeLog where
  known : Bool := false
  writes : List Element := []
  toggles : Nat := 0
  deriving DecidableEq

namespace AttributeLog

/-- What an accepted call adds to the log of a path. Loading starts the log anew. -/
def note (p : AttributePath) (log : AttributeLog) : StoreCall → AttributeLog
  | .addAttribute q => if q = p then { log with known := true } else log
  | .write q v => if q = p then { log with known := true, writes := log.writes ++ [v] } else log
  | .toggle q => if q = p then { log with toggles := log.toggles + 1 } else log
  | .load x => ⟨(x.entry? p).isSome, ((x.entry? p).bind Entry.element?).toList, 0⟩
  | _ => log

def of (p : AttributePath) (calls : List StoreCall) : AttributeLog := calls.foldl (note p) {}

/-- The kind and width of the first value that is not null. -/
def signature? (log : AttributeLog) : Option Signature :=
  (log.writes.find? (·.kind ≠ .null)).map .ofElement

/-- The attribute that a log tells of. -/
def toAttribute (log : AttributeLog) : Attribute where
  current := log.writes.getLast?
  previous := log.writes.dropLast.getLast?
  readable := log.toggles % 2 == 0
  signature := log.signature?
  nullable := log.writes.any (·.kind = .null)

/-- A value is refused because it should have had a signature: the kinds differ, or the widths of
numbers. -/
structure Mismatch (log : AttributeLog) (expected : Signature) (v : Element) : Prop where
  known : log.signature? = some expected
  notNull : v.kind ≠ .null
  differs : expected.kind ≠ v.kind ∨
    expected.kind ∈ [Kind.signed, .unsigned, .float] ∧ expected.width ≠ v.width

variable {log : AttributeLog} {v : Element}

theorem toAttribute_restored (known : Bool) (v : Option Element) :
    toAttribute ⟨known, v.toList, 0⟩ = .restored v := by
  cases v with
  | none => rfl
  | some v =>
    by_cases hv : v.kind = .null
    · simp [toAttribute, Attribute.restored, signature?, hv, Option.filter]
    · simp [toAttribute, Attribute.restored, signature?, hv, Option.filter]

theorem toAttribute_toggle (log : AttributeLog) :
    log.toAttribute.toggle = toAttribute { log with toggles := log.toggles + 1 } := by
  have hparity : (!(log.toggles % 2 == 0)) = ((log.toggles + 1) % 2 == 0) := by
    rw [Bool.eq_iff_iff]
    simp only [Bool.not_eq_true', beq_eq_false_iff_ne, beq_iff_eq]
    omega
  unfold Attribute.toggle toAttribute
  rw [hparity]
  rfl

theorem signature?_concat (log : AttributeLog) (v : Element) :
    signature? { log with writes := log.writes ++ [v] } =
      log.signature?.or (if v.kind = .null then none else some (.ofElement v)) := by
  unfold signature?
  rw [List.find?_append]
  cases log.writes.find? (·.kind ≠ .null) with
  | some w => rfl
  | none =>
    by_cases hv : v.kind = .null
    · simp [hv]
    · simp [hv]

theorem toAttribute_write {a : Attribute} (h : log.toAttribute.write v = .ok a) :
    a = toAttribute { log with writes := log.writes ++ [v] } := by
  rw [Attribute.eq_of_write h]
  unfold toAttribute
  rw [signature?_concat]
  simp [Attribute.shift]

theorem mismatch_iff {expected : Signature} :
    log.Mismatch expected v ↔ log.toAttribute.write v = .error expected := by
  rw [Attribute.write_eq_error_iff, Signature.accepts_eq_false_iff]
  exact ⟨fun h => ⟨h.known, h.notNull, h.differs⟩, fun h => ⟨h.1, h.2.1, h.2.2⟩⟩

end AttributeLog

namespace Store

/-- The attribute at a path is the one that a log tells of. Where there is none the log is empty. -/
structure Tracks (s : Store) (p : AttributePath) (log : AttributeLog) : Prop where
  shown : s.attribute? p = if log.known then some log.toAttribute else none
  unknown : log.known = false → log.writes = [] ∧ log.toggles = 0

variable {s t : Store} {p : AttributePath} {log : AttributeLog}

theorem Tracks.getD (h : s.Tracks p log) : (s.attribute? p).getD {} = log.toAttribute := by
  rw [h.shown]
  cases hknown : log.known with
  | true => rfl
  | false =>
    obtain ⟨hwrites, htoggles⟩ := h.unknown hknown
    rw [AttributeLog.toAttribute, AttributeLog.signature?, hwrites, htoggles]
    rfl

theorem Tracks.known (h : s.Tracks p log) {a : Attribute} (ha : s.attribute? p = some a) :
    log.known = true ∧ a = log.toAttribute := by
  rw [h.shown] at ha
  split at ha
  · next hknown =>
    cases ha
    exact ⟨hknown, rfl⟩
  · cases ha

theorem Tracks.of_known (hknown : log.known = true) (h : s.attribute? p = some log.toAttribute) :
    s.Tracks p log := by
  refine ⟨?_, fun hunknown => ?_⟩
  · rw [if_pos hknown, h]
  · rw [hknown] at hunknown
    cases hunknown

theorem note_of_not_concerns {call : StoreCall} (h : call.concerns p = false) :
    log.note p call = log := by
  cases call with
  | addAttribute q | write q v | toggle q => exact if_neg (beq_eq_false_iff_ne.mp h)
  | load x => cases h
  | _ => rfl

theorem Tracks.apply (h : s.Tracks p log) {call : StoreCall} (happly : s.apply call = .ok t) :
    t.Tracks p (log.note p call) := by
  cases hp : call.concerns p with
  | false =>
    rw [note_of_not_concerns hp]
    exact ⟨(attribute?_apply happly hp).trans h.shown, h.unknown⟩
  | true =>
    cases call with
    | addAttribute q =>
      obtain rfl : q = p := beq_iff_eq.mp hp
      have hshown := attribute?_addAttribute (q := q) happly
      rw [if_pos rfl, h.getD] at hshown
      rw [AttributeLog.note, if_pos rfl]
      exact .of_known rfl hshown
    | write q v =>
      obtain rfl : q = p := beq_iff_eq.mp hp
      obtain ⟨a, hwrite, hshown⟩ := attribute?_write (q := q) happly
      rw [h.getD] at hwrite
      rw [if_pos rfl, AttributeLog.toAttribute_write hwrite] at hshown
      rw [AttributeLog.note, if_pos rfl]
      exact .of_known rfl hshown
    | toggle q =>
      obtain rfl : q = p := beq_iff_eq.mp hp
      obtain ⟨opened, htoggle⟩ := toggle_of_apply happly
      obtain ⟨a, ha, hshown⟩ := attribute?_toggle (q := q) htoggle
      obtain ⟨hknown, rfl⟩ := h.known ha
      rw [if_pos rfl, AttributeLog.toAttribute_toggle] at hshown
      rw [AttributeLog.note, if_pos rfl]
      exact .of_known hknown hshown
    | load x =>
      cases (load_eq_toStore x).symm.trans happly
      -- nothing of the old log is left, so only here the path may become unknown
      refine ⟨?_, ?_⟩
      · rw [attribute?_toStore, AttributeLog.note, AttributeLog.toAttribute_restored]
        cases x.entry? p <;> rfl
      · change (x.entry? p).isSome = false → ((x.entry? p).bind _).toList = [] ∧ 0 = 0
        intro hunknown
        have hnone := Option.isNone_iff_eq_none.mp (Option.isSome_eq_false_iff.mp hunknown)
        rw [hnone]
        exact ⟨rfl, rfl⟩
    | setIdentity | addNode | addEndpoint | addCluster | addDeviceType => cases hp

theorem tracks_of (calls : List StoreCall) (p : AttributePath) :
    (Store.of calls).Tracks p (.of p (accepted calls)) := by
  refine run_induction (fun past s => s.Tracks p (.of p past)) ⟨rfl, fun _ => ⟨rfl, rfl⟩⟩
    (fun past s call t h happly => ?_) calls
  rw [AttributeLog.of, List.foldl_append]
  exact h.apply happly

/-- What a store shows at a path, which values it accepts there, and which calls do not matter
there, by a log. -/
structure Mirrors (s : Store) (p : AttributePath) (log : AttributeLog) : Prop where
  leaf : ∀ a, s.leaf p = .ok a ↔ log.known = true ∧ a = log.toAttribute
  written : log.writes ≠ [] → log.known = true
  read : ∀ g, log.known = true → s.read p g =
    match log.toggles % 2 == 0, log.toAttribute.get g with
    | true, some v => .ok v
    | _, _ => .error (.unreadable p)
  refused : ∀ c v expected, s.cluster p.node p.endpoint p.cluster = .ok c →
    (s.write p v = .error (.typeMismatch p expected (.ofElement v)) ↔ log.Mismatch expected v)
  accepted : ∀ c v, s.cluster p.node p.endpoint p.cluster = .ok c →
    ((∃ t, s.write p v = .ok t) ↔ ¬ ∃ expected, log.Mismatch expected v)
  kept : ∀ call a, call.concerns p = false → ((s.after call).leaf p = .ok a ↔ s.leaf p = .ok a)

theorem Tracks.leaf_eq_ok_iff (h : s.Tracks p log) {a : Attribute} :
    s.leaf p = .ok a ↔ log.known = true ∧ a = log.toAttribute := by
  rw [leaf_eq_ok_iff_eq_some, h.shown]
  cases log.known <;> simp [eq_comm]

theorem Tracks.read_eq (h : s.Tracks p log) (hknown : log.known = true) (g : Generation) :
    s.read p g = match log.toggles % 2 == 0, log.toAttribute.get g with
      | true, some v => .ok v
      | _, _ => .error (.unreadable p) :=
  read_of_leaf (h.leaf_eq_ok_iff.mpr ⟨hknown, rfl⟩) g

theorem Tracks.write_iff (h : s.Tracks p log) {c : Cluster}
    (hc : s.cluster p.node p.endpoint p.cluster = .ok c) (v : Element) :
    (∀ expected, s.write p v = .error (.typeMismatch p expected (.ofElement v)) ↔
      log.Mismatch expected v) ∧
    ((∃ t, s.write p v = .ok t) ↔ ¬ ∃ expected, log.Mismatch expected v) := by
  rw [cluster_eq_ok_iff_eq_some] at hc
  simp only [AttributeLog.mismatch_iff]
  cases hwrite : log.toAttribute.write v with
  | error refusal =>
    rw [← h.getD] at hwrite
    rw [write_eq_error hc hwrite]
    simp
  | ok a =>
    rw [← h.getD] at hwrite
    rw [write_eq_ok_iff.mpr ⟨c, a, hc, hwrite, rfl⟩]
    simp

/-- Every attribute mirrors its own write log, after every run of calls. -/
theorem mirrors_log (calls : List StoreCall) (p : AttributePath) :
    (Store.of calls).Mirrors p (.of p (accepted calls)) := by
  have h := tracks_of calls p
  refine ⟨fun a => h.leaf_eq_ok_iff, ?_, fun g hknown => h.read_eq hknown g,
    fun c v expected hc => (h.write_iff hc v).1 expected, fun c v hc => (h.write_iff hc v).2, ?_⟩
  · intro hwrites
    by_contra hunknown
    exact hwrites (h.unknown (eq_false_of_ne_true hunknown)).1
  · intro call a hp
    rw [after]
    split
    · next t happly =>
      have hsame : t.attribute? p = (Store.of calls).attribute? p := attribute?_apply happly hp
      rw [leaf_eq_ok_iff_eq_some, leaf_eq_ok_iff_eq_some, hsame]
    · rfl

/-- A null is loaded, a number follows, a Boolean is refused and the gate is closed. -/
theorem mirrors_log_loaded :
    let p : AttributePath := ⟨1, 0, 6, 0⟩
    let x : Snapshot := ⟨"", none, none, .ofList [(1, ⟨.ofList [(0, ⟨[], .ofList [(6,
      ⟨4, .ofList [(0, .ofElement .null)]⟩)]⟩)]⟩)], []⟩
    let calls : List StoreCall := [.addNode 1, .addEndpoint 1 0, .addCluster 1 0 6 1,
      .write p (.bool true), .load x, .write p (.unsigned .one 5), .write p (.bool true),
      .write ⟨1, 0, 6, 1⟩ .null, .toggle p]
    let s := Store.of calls
    s.leaf p = .ok ⟨some (.unsigned .one 5), some .null, false, some ⟨.unsigned, 1⟩, true⟩ ∧
      s.read p .current = .error (.unreadable p) ∧
      s.write p (.unsigned .two 5) = .error (.typeMismatch p ⟨.unsigned, 1⟩ ⟨.unsigned, 2⟩) ∧
      ∃ t, s.write p .null = .ok t := by
  intro p x calls s
  have hlog : AttributeLog.of p (accepted calls) = ⟨true, [.null, .unsigned .one 5], 1⟩ := by
    decide +kernel
  have h := mirrors_log calls p
  rw [hlog] at h
  have hleaf := (h.leaf _).mpr ⟨rfl, rfl⟩
  obtain ⟨c, hc, -⟩ := leaf_eq_ok_iff.mp hleaf
  have hmismatch : AttributeLog.Mismatch ⟨true, [.null, .unsigned .one 5], 1⟩ ⟨.unsigned, 1⟩
      (.unsigned .two 5) := ⟨rfl, by decide, .inr ⟨by decide, by decide⟩⟩
  have hnull : ¬ ∃ expected, AttributeLog.Mismatch ⟨true, [.null, .unsigned .one 5], 1⟩ expected
      .null := by
    rintro ⟨expected, hmismatch⟩
    exact hmismatch.notNull rfl
  exact ⟨hleaf, h.read .current rfl, (h.refused c _ _ hc).mpr hmismatch,
    (h.accepted c _ hc).mpr hnull⟩

end Store

end DeviceTrial
