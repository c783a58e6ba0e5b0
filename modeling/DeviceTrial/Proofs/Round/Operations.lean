import DeviceTrial.Proofs.Round.Steps
import DeviceTrial.Round.Rounds

namespace DeviceTrial

namespace Rounds

variable {s : Rounds} {r : Round}

theorem active_eq_ok_iff : s.active = .ok r ↔ s.live = some r ∧ r.status ≠ .terminated := by
  unfold active round
  cases hlive : s.live with
  | none => exact ⟨fun h => (nomatch h), fun h => (nomatch h.1)⟩
  | some q =>
    change (if q.status = .terminated then .error _ else Except.ok q) = .ok r ↔ _
    by_cases hq : q.status = .terminated
    · rw [if_pos hq]
      refine ⟨fun h => (nomatch h), fun h => ?_⟩
      cases h.1
      exact (h.2 hq).elim
    · rw [if_neg hq]
      constructor
      · intro h
        cases h
        exact ⟨rfl, hq⟩
      · intro h
        cases h.1
        rfl

theorem active_of_terminated (hlive : s.live = some r) (hstatus : r.status = .terminated) :
    s.active = .error (.terminated r.id) := by
  unfold active round
  rw [hlive]
  exact if_pos hstatus

theorem update_of_active (h : s.active = .ok r) (u : RoundUpdate) :
    s.update u =
      .ok ((r.update u).status, { s.effects r u with live := some (r.update u) }) := by
  unfold update
  rw [h]
  rfl

theorem update_of_error {fault : RoundFault} (h : s.active = .error fault) (u : RoundUpdate) :
    s.update u = .error fault := by
  unfold update
  rw [h]
  rfl

theorem active_effects (h : s.active = .ok r) (u : RoundUpdate) :
    Rounds.active { s.effects r u with live := some (r.update u) } = .ok (r.update u) :=
  active_eq_ok_iff.mpr ⟨rfl, Round.update_ne_terminated (active_eq_ok_iff.mp h).2 u⟩

theorem active_of_update {u : RoundUpdate} {x : RoundStatus × Rounds} (h : s.update u = .ok x) :
    ∃ r, s.active = .ok r ∧
      x = ((r.update u).status, { s.effects r u with live := some (r.update u) }) := by
  cases hactive : s.active with
  | error fault =>
    rw [update_of_error hactive] at h
    cases h
  | ok r =>
    rw [update_of_active hactive] at h
    cases h
    exact ⟨r, rfl, rfl⟩

/-- Two states agree in what outlives the single round. -/
structure SameBooks (s t : Rounds) : Prop where
  nextId : t.nextId = s.nextId
  limit : t.limit = s.limit
  silences : t.silences = s.silences
  log : t.log = s.log

theorem SameBooks.refl (s : Rounds) : s.SameBooks s := ⟨rfl, rfl, rfl, rfl⟩

theorem SameBooks.trans {t u : Rounds} (h : s.SameBooks t) (h' : t.SameBooks u) : s.SameBooks u :=
  ⟨h'.nextId.trans h.nextId, h'.limit.trans h.limit, h'.silences.trans h.silences,
    h'.log.trans h.log⟩

theorem sameBooks_effects (s : Rounds) (r : Round) (u : RoundUpdate) :
    s.SameBooks (s.effects r u) := by
  cases u with
  | response status =>
    unfold effects
    cases r.slot <;> exact ⟨rfl, rfl, rfl, rfl⟩
  | target | destination | changed | flags => exact ⟨rfl, rfl, rfl, rfl⟩

/-- An update touches the live round, the slots and the signals, and nothing else. -/
theorem sameBooks_update {u : RoundUpdate} {x : RoundStatus × Rounds} (h : s.update u = .ok x) :
    s.SameBooks x.2 := by
  obtain ⟨r, -, rfl⟩ := active_of_update h
  obtain ⟨hid, hlimit, hsilences, hlog⟩ := sameBooks_effects s r u
  exact ⟨hid, hlimit, hsilences, hlog⟩

theorem sameBooks_deliver (s : Rounds) (us : List RoundUpdate) :
    s.SameBooks (s.deliver us).2 := by
  induction us generalizing s with
  | nil => exact .refl s
  | cons u us ih =>
    rw [deliver]
    cases hupdate : s.update u with
    | error fault => exact ih s
    | ok x => exact (sameBooks_update hupdate).trans (ih x.2)

theorem deliver_cons_of_ok {u : RoundUpdate} {us : List RoundUpdate} {status : RoundStatus}
    {t : Rounds} (h : s.update u = .ok (status, t)) :
    s.deliver (u :: us) = (.ok status :: (t.deliver us).1, (t.deliver us).2) := by
  rw [deliver, h]

theorem deliver_of_active (h : s.active = .ok r) (us : List RoundUpdate) :
    (s.deliver us).1 =
        (List.range us.length).map (fun i =>
          .ok ((us.take (i + 1)).foldl Round.update r).status) ∧
      (s.deliver us).2.active = .ok (us.foldl Round.update r) := by
  -- on the updates: the round that took the first of them is live for the rest
  induction us generalizing s r with
  | nil => exact ⟨rfl, h⟩
  | cons u us ih =>
    obtain ⟨hanswers, hlive⟩ := ih (active_effects h u)
    rw [deliver_cons_of_ok (update_of_active h u)]
    refine ⟨?_, hlive⟩
    rw [hanswers, List.length_cons, List.range_succ_eq_map, List.map_cons, List.map_map]
    rfl

theorem isWaiting_setWaiting_false (s : Rounds) (signal : Signal) :
    (s.setWaiting signal false).isWaiting signal = false := by
  have herased : (s.waiting.erase signal).get? signal = none :=
    (SortedMap.get?_erase _ _ _).trans (if_pos rfl)
  exact congrArg Option.isSome herased

theorem value_observe (s : Rounds) (o : Option Observation) :
    (s.observe o).value = { s with log := o.elim s.log (s.log.record ·) } := by
  cases o with
  | none => rfl
  | some o =>
    rw [observe, Option.elim_some, ObservationLog.record]
    cases s.log.knows o <;> rfl

/-- The end of a round terminates it, clears its signal and gives what it showed to the log. -/
theorem value_terminate (s : Rounds) (r : Round) (silent : Bool) :
    (s.terminate r silent).value =
      (if silent then .silent else .completed r.status,
        { s.setWaiting r.signal false with
          live := some { r with status := .terminated }
          log := (s.observation r).elim s.log (s.log.record ·) }) := by
  have hobserve := value_observe
    { s.setWaiting r.signal false with live := some { r with status := .terminated } }
    (s.observation r)
  refine Prod.ext ?_ ?_
  · cases silent <;> rfl
  · cases silent with
    | false => exact hobserve
    | true => exact hobserve

theorem finalize_eq_error_iff {arrivals : List RoundUpdate} {fault : RoundFault} :
    s.finalize arrivals = .error fault ↔ s.active = .error fault := by
  unfold finalize
  cases hactive : s.active with
  | error f =>
    constructor
    · intro h
      cases h
      rfl
    · intro h
      cases h
      rfl
  | ok r =>
    refine ⟨fun h => ?_, fun h => (nomatch h)⟩
    change (if s.waits r then _ else _) = _ at h
    split at h <;> cases h

theorem finalize_of_not_waits (h : s.active = .ok r) (hw : s.waits r = false)
    (arrivals : List RoundUpdate) : s.finalize arrivals = .ok (s.terminate r false) := by
  unfold finalize
  rw [h]
  change (if s.waits r then _ else _) = _
  rw [hw]
  rfl

/-- What arrives during the wait, and whether it brings a report, decides how the round ends. -/
theorem finalize_of_waits (h : s.active = .ok r) (hw : s.waits r = true)
    (arrivals : List RoundUpdate) :
    let after := arrivals.foldl Round.update r
    let delivered := (s.deliver arrivals).2
    s.finalize arrivals = .ok (Rounds.terminate
      (match r.path with
        | some p => delivered.countSilence p (!after.isPast)
        | none => delivered)
      after (!after.isPast)) := by
  intro after delivered
  have hactive : delivered.active = .ok after := (deliver_of_active h arrivals).2
  have hlive : delivered.live.getD r = after := by
    rw [(active_eq_ok_iff.mp hactive).1]
    rfl
  unfold finalize
  rw [h]
  change (if s.waits r then _ else _) = _
  rw [hw, ← hlive]
  rfl

/-- The updates that the end of a round lets in: those that arrive, if it waits. -/
def admitted (s : Rounds) (r : Round) (arrivals : List RoundUpdate) : List RoundUpdate :=
  if s.waits r then arrivals else []

/-- The counters after a round has ended. Only those of the path that it had when its end was called
for are counted. -/
def silencesAfter (s : Rounds) (r : Round) (silent : Bool) : SortedMap CommandPath Nat :=
  if s.waits r then
    match r.path with
    | some p => (s.countSilence p silent).silences
    | none => s.silences
  else s.silences

theorem get?_silencesAfter_of_ne {q : CommandPath} (h : r.path ≠ some q) (silent : Bool) :
    (s.silencesAfter r silent).get? q = s.silences.get? q := by
  unfold silencesAfter
  split
  · cases hpath : r.path with
    | none => rfl
    | some p =>
      have hne : q ≠ p := fun hqp => h (by rw [hpath, hqp])
      cases silent with
      | true => exact SortedMap.get?_insert_of_ne _ _ hne
      | false => exact (SortedMap.get?_erase _ _ _).trans (if_neg fun hrank => hne (rank_inj hrank))
  · rfl

theorem get?_silencesAfter_self (hw : s.waits r = true) {p : CommandPath} (hp : r.path = some p)
    (silent : Bool) :
    (s.silencesAfter r silent).get? p = if silent then some (s.silencesOf p + 1) else none := by
  rw [silencesAfter, if_pos hw, hp]
  cases silent with
  | true => exact SortedMap.get?_insert_self _ _ _
  | false => exact (SortedMap.get?_erase _ _ _).trans (if_pos rfl)

/-- All that the end of a round does. -/
theorem finalize_of_active (h : s.active = .ok r) (arrivals : List RoundUpdate) :
    let admitted := s.admitted r arrivals
    let delivered := (s.deliver admitted).2
    let reached := admitted.foldl Round.update r
    let silent := s.waits r && !reached.isPast
    ∃ ended, s.finalize arrivals = .ok ended ∧
      ended.value =
        (if silent then .silent else .completed reached.status,
          { delivered.setWaiting r.signal false with
            live := some { reached with status := .terminated }
            silences := s.silencesAfter r silent
            log := (delivered.observation reached).elim s.log (s.log.record ·) }) := by
  cases hw : s.waits r with
  | false =>
    have hadmitted : s.admitted r arrivals = [] := by rw [admitted, hw]; rfl
    refine ⟨_, finalize_of_not_waits h hw arrivals, ?_⟩
    rw [hadmitted, value_terminate, silencesAfter, hw]
    rfl
  | true =>
    have hadmitted : s.admitted r arrivals = arrivals := by rw [admitted, hw]; rfl
    refine ⟨_, finalize_of_waits h hw arrivals, ?_⟩
    rw [hadmitted, value_terminate, silencesAfter, hw, r.signal_foldl_update]
    -- the arrivals leave the counters and the log as they were
    obtain ⟨-, -, hsilences, hlog⟩ := s.sameBooks_deliver arrivals
    cases r.path with
    | none =>
      rw [← hsilences, ← hlog]
      rfl
    | some p =>
      have hcount (silent : Bool) : (s.countSilence p silent).silences =
          ((s.deliver arrivals).2.countSilence p silent).silences := by
        rw [countSilence, countSilence, Rounds.silencesOf, Rounds.silencesOf, hsilences]
      simp only [if_true, hcount]
      rw [← hlog]
      rfl

theorem live_finalize {arrivals : List RoundUpdate} {x : Told (RoundOutcome × Rounds)}
    (h : s.finalize arrivals = .ok x) :
    ∃ r, x.value.2.live = some r ∧ r.status = .terminated := by
  cases hactive : s.active with
  | error fault =>
    rw [finalize_eq_error_iff.mpr hactive] at h
    cases h
  | ok r =>
    obtain ⟨ended, hfinal, hvalue⟩ := finalize_of_active hactive arrivals
    cases hfinal.symm.trans h
    exact ⟨_, congrArg (·.2.live) hvalue, rfl⟩

theorem value_close {force : Bool} {x : Told Rounds} (h : s.close force = .ok x) :
    x.value = { s with live := none } := by
  unfold close at h
  cases hlive : s.live with
  | none =>
    rw [hlive] at h
    cases force with
    | false => cases h
    | true =>
      cases h
      rw [← hlive]
      rfl
  | some r =>
    rw [hlive] at h
    change (if _ then _ else _) = _ at h
    split at h
    · cases h
      rfl
    · cases h

def started (s : Rounds) (signal : Signal) : Rounds :=
  { s with live := some (.new s.nextId signal), nextId := s.nextId + 1 }

theorem active_started (s : Rounds) (signal : Signal) :
    (s.started signal).active = .ok (.new s.nextId signal) :=
  active_eq_ok_iff.mpr ⟨rfl, fun h => (nomatch h)⟩

theorem start_of_live_none (h : s.live = none) (signal : Signal) :
    ∃ opened, s.start signal = .ok opened ∧ opened.value = (s.nextId, s.started signal) := by
  unfold start
  rw [h]
  exact ⟨_, rfl, rfl⟩

theorem live_start {signal : Signal} {x : Told (Nat × Rounds)} (h : s.start signal = .ok x) :
    s.live = none ∧ x.value.2.live = some (.new s.nextId signal) := by
  unfold start at h
  cases hlive : s.live with
  | some r =>
    rw [hlive] at h
    cases h
  | none =>
    rw [hlive] at h
    cases h
    exact ⟨rfl, rfl⟩

end Rounds

end DeviceTrial
