import DeviceTrial.Proofs.Observations
import DeviceTrial.Proofs.Round.Ends
import DeviceTrial.Proofs.Round.Order

namespace DeviceTrial

open Trace

namespace RoundUpdate

def status? : RoundUpdate → Option Status
  | response status => some status
  | _ => none

def paths : RoundUpdate → SortedSet AttributePath
  | changed paths => paths
  | _ => .empty

def slot? : RoundUpdate → Option Slot
  | target _ _ slot | destination _ slot => some slot
  | _ => none

end RoundUpdate

/-! ## The observation of a trace -/

namespace Trace

def latestStatus (us : List RoundUpdate) : Option Status :=
  (us.filterMap RoundUpdate.status?).getLast?

def changes (us : List RoundUpdate) : SortedSet AttributePath :=
  us.foldl (fun changed u => changed.union u.paths) .empty

/-- What a round shows that has taken the updates. -/
def observation (round : Nat) (us : List RoundUpdate) : Option Observation :=
  (latestPath us).map fun path => ⟨round, path, latestStatus us, changes us⟩

theorem latestStatus_concat (us : List RoundUpdate) (u : RoundUpdate) :
    latestStatus (us ++ [u]) = u.status?.or (latestStatus us) :=
  getLast?_filterMap_concat RoundUpdate.status? us u

theorem changes_concat (us : List RoundUpdate) (u : RoundUpdate) :
    changes (us ++ [u]) = (changes us).union u.paths :=
  List.foldl_append ..

theorem contains_changes {us : List RoundUpdate} {p : AttributePath} :
    (changes us).contains p = true ↔
      ∃ paths, RoundUpdate.changed paths ∈ us ∧ paths.contains p = true := by
  induction us using List.reverseRecOn with
  | nil => simp [changes, SortedMap.contains]
  | append_singleton us u ih =>
    rw [changes_concat, SortedMap.contains_union, ih]
    cases u with
    | changed paths =>
      simp only [RoundUpdate.paths, List.mem_append, List.mem_singleton, RoundUpdate.changed.injEq,
        or_and_right, exists_or, exists_eq_left]
    | target | destination | response | flags =>
      simp [RoundUpdate.paths, SortedMap.contains]

theorem latestPath_isSome_iff {us : List RoundUpdate} :
    (latestPath us).isSome = true ↔
      ∃ destination path slot, RoundUpdate.target destination path slot ∈ us := by
  induction us using List.reverseRecOn with
  | nil => simp [latestPath]
  | append_singleton us u ih =>
    rw [latestPath_concat, Option.isSome_or, Bool.or_eq_true, ih]
    cases u with
    | target destination path slot =>
      simp only [RoundUpdate.path?, Option.isSome_some, true_or, List.mem_append,
        List.mem_singleton, true_iff]
      exact ⟨destination, path, slot, .inr rfl⟩
    | destination | response | changed | flags => simp [RoundUpdate.path?]

end Trace

/-! ## Rounds and their slots -/

/-- The round has noted what the updates say. -/
structure Round.Notes (r : Round) (us : List RoundUpdate) : Prop where
  path : r.path = latestPath us
  response : r.response = latestStatus us
  changed : r.changed = changes us

theorem Round.response_update (r : Round) (u : RoundUpdate) :
    (r.update u).response = u.status?.or r.response := by
  cases u <;> rfl

theorem Round.slot_update (r : Round) (u : RoundUpdate) :
    (r.update u).slot = u.slot?.or r.slot := by
  cases u <;> rfl

theorem Round.changed_update (r : Round) (u : RoundUpdate) :
    (r.update u).changed = r.changed.union u.paths := by
  cases u <;> rfl

theorem Round.Notes.update {r : Round} {us : List RoundUpdate} (h : r.Notes us) (u : RoundUpdate) :
    (r.update u).Notes (us ++ [u]) := by
  refine ⟨?_, ?_, ?_⟩
  · rw [r.path_update, h.path, latestPath_concat]
  · rw [r.response_update, h.response, latestStatus_concat]
  · rw [r.changed_update, h.changed, changes_concat]

/-- An update writes its status to the slot of the round, and no other slot. -/
theorem Rounds.get?_effects (s : Rounds) (r : Round) (u : RoundUpdate) (slot : Slot) :
    (s.effects r u).slots.get? slot =
      if r.slot = some slot then u.status?.or (s.slots.get? slot) else s.slots.get? slot := by
  cases u with
  | response status =>
    unfold effects
    cases r.slot with
    | none => rfl
    | some own =>
      simp only [setSlot, SortedMap.get?_insert, Option.some.injEq]
      by_cases hslot : own = slot
      · rw [if_pos hslot, if_pos (congrArg rank hslot.symm)]
        rfl
      · rw [if_neg hslot, if_neg fun hrank => hslot (rank_inj hrank).symm]
  | target | destination | changed | flags => exact (ite_self _).symm

namespace RoundCall

/-- The slots that a call hands in with targets and destinations. -/
def given : RoundCall → List Slot
  | update u => u.slot?.toList
  | finalize arrivals => arrivals.filterMap RoundUpdate.slot?
  | _ => []

/-- The slots that a call fills from outside. -/
def filled : RoundCall → List Slot
  | fill slot _ => [slot]
  | _ => []

end RoundCall

/-- Every target and every destination comes with a slot of its own, which only rounds write. -/
structure FreshSlots (calls : List RoundCall) : Prop where
  nodup : (calls.flatMap RoundCall.given).Nodup
  unfilled : ∀ slot ∈ calls.flatMap RoundCall.filled, slot ∉ calls.flatMap RoundCall.given

theorem FreshSlots.of_concat {calls : List RoundCall} {call : RoundCall}
    (h : FreshSlots (calls ++ [call])) : FreshSlots calls := by
  obtain ⟨hnodup, hunfilled⟩ := h
  simp only [List.flatMap_append] at hnodup hunfilled
  refine ⟨(List.nodup_append.mp hnodup).1, fun slot hfilled hgiven => ?_⟩
  exact hunfilled slot (List.mem_append_left _ hfilled) (List.mem_append_left _ hgiven)

/-- Only slots that were given or filled hold a status. The live round has noted what the updates
say, its slot is among those given, and the slot tells no other status than the round has noted. -/
structure Rounds.Reflects (s : Rounds) (us : List RoundUpdate) (given filled : List Slot) :
    Prop where
  written : ∀ slot, s.slots.contains slot = true → slot ∈ given ∨ slot ∈ filled
  notes : ∀ r, s.active = .ok r → r.Notes us
  slot_given : ∀ r slot, s.active = .ok r → r.slot = some slot → slot ∈ given
  agrees : ∀ r slot status, s.active = .ok r → r.slot = some slot →
    s.slots.get? slot = some status → r.response = some status

namespace Rounds.Reflects

variable {s t : Rounds} {us : List RoundUpdate} {given filled : List Slot} {r : Round}

/-- Without a live round that goes on, only the slots matter. -/
theorem of_not_active {fault : RoundFault} (hactive : s.active = .error fault)
    (hwritten : ∀ slot, s.slots.contains slot = true → slot ∈ given ∨ slot ∈ filled) :
    s.Reflects us given filled := by
  refine ⟨hwritten, fun r hr => ?_, fun r slot hr => ?_, fun r slot status hr => ?_⟩ <;>
  · rw [hactive] at hr
    cases hr

theorem mono (h : s.Reflects us given filled) (given' filled' : List Slot) :
    s.Reflects us (given ++ given') (filled ++ filled') where
  written slot hslot :=
    (h.written slot hslot).imp (List.mem_append_left _) (List.mem_append_left _)
  notes := h.notes
  slot_given r slot hr hslot := List.mem_append_left _ (h.slot_given r slot hr hslot)
  agrees := h.agrees

/-- The slot of the round or its own note, whichever is there, tells the latest status. -/
theorem observation_eq (h : s.Reflects us given filled) (hactive : s.active = .ok r) :
    s.observation r = Trace.observation r.id us := by
  obtain ⟨hpath, hresponse, hchanged⟩ := h.notes r hactive
  have hstatus : (r.slot.bind s.slots.get?).or r.response = latestStatus us := by
    rw [← hresponse]
    cases htold : r.slot.bind s.slots.get? with
    | none => rfl
    | some status =>
      obtain ⟨slot, hslot, hget⟩ := Option.bind_eq_some_iff.mp htold
      exact (h.agrees r slot status hactive hslot hget).symm
  rw [Rounds.observation, Trace.observation, hstatus, hpath, hchanged]

/-- An update keeps the tie if its slot, where it has one, is new. -/
theorem update (h : s.Reflects us given filled) (hactive : s.active = .ok r) (u : RoundUpdate)
    (hnew : ∀ slot, u.slot? = some slot → slot ∉ given ∧ slot ∉ filled) :
    (s.after (.update u)).Reflects (us ++ [u]) (given ++ u.slot?.toList) filled := by
  have hnext : (s.after (.update u)).active = .ok (r.update u) :=
    active_after_update hactive u
  have hget (slot : Slot) := s.get?_effects r u slot
  have hslots : (s.after (.update u)).slots = (s.effects r u).slots := by
    rw [after_update_of_active hactive]
  refine ⟨fun slot hslot => ?_, fun q hq => ?_, fun q slot hq hslot => ?_,
    fun q slot status hq hslot htold => ?_⟩
  · rw [hslots, SortedMap.contains, hget] at hslot
    split at hslot
    · rename_i hown
      exact .inl (List.mem_append_left _ (h.slot_given r slot hactive hown))
    · exact (h.written slot hslot).imp_left (List.mem_append_left _)
  · cases hnext.symm.trans hq
    exact (h.notes r hactive).update u
  · cases hnext.symm.trans hq
    rw [r.slot_update, Option.or_eq_some_iff] at hslot
    rcases hslot with hgiven | ⟨-, hown⟩
    · exact List.mem_append_right _ (Option.mem_toList.mpr hgiven)
    · exact List.mem_append_left _ (h.slot_given r slot hactive hown)
  · cases hnext.symm.trans hq
    rw [hslots, hget] at htold
    rw [r.slot_update, Option.or_eq_some_iff] at hslot
    rw [r.response_update]
    rcases hslot with hgiven | ⟨-, hown⟩
    · -- the slot is new, so nothing is written to it yet
      obtain ⟨hnotgiven, hnotfilled⟩ := hnew slot hgiven
      rw [if_neg fun hown => hnotgiven (h.slot_given r slot hactive hown)] at htold
      have hwritten := h.written slot (Option.isSome_iff_exists.mpr ⟨status, htold⟩)
      exact (hwritten.elim hnotgiven hnotfilled).elim
    · rw [if_pos hown] at htold
      cases hstatus : u.status? with
      | some latest => rwa [hstatus] at htold
      | none =>
        rw [hstatus] at htold
        exact h.agrees r slot status hactive hown htold

theorem deliver (h : s.Reflects us given filled) (hactive : s.active = .ok r)
    (vs : List RoundUpdate) (hnodup : (given ++ vs.filterMap RoundUpdate.slot?).Nodup)
    (hunfilled : ∀ slot ∈ vs.filterMap RoundUpdate.slot?, slot ∉ filled) :
    (s.deliver vs).2.Reflects (us ++ vs) (given ++ vs.filterMap RoundUpdate.slot?) filled := by
  induction vs generalizing s r us given with
  | nil => rwa [List.append_nil, List.filterMap_nil, List.append_nil]
  | cons v vs ih =>
    have hslots : (v :: vs).filterMap RoundUpdate.slot? =
        v.slot?.toList ++ vs.filterMap RoundUpdate.slot? := by
      cases hslot : v.slot? <;> simp [hslot]
    rw [hslots] at hunfilled
    rw [hslots, ← List.append_assoc] at hnodup
    rw [hslots, ← List.append_assoc, List.append_cons us v vs]
    have hnew (slot : Slot) (hslot : v.slot? = some slot) : slot ∉ given ∧ slot ∉ filled := by
      have hmem : slot ∈ v.slot?.toList := Option.mem_toList.mpr hslot
      have hapart := (List.nodup_append.mp (List.nodup_append.mp hnodup).1).2.2
      refine ⟨fun hgiven => hapart slot hgiven slot hmem rfl, ?_⟩
      exact hunfilled slot (List.mem_append_left _ hmem)
    have hnext : (s.deliver (v :: vs)).2 = ((s.after (.update v)).deliver vs).2 := by
      rw [deliver_cons_of_ok (update_of_active hactive v), after_update_of_active hactive]
    rw [hnext]
    exact ih (h.update hactive v hnew) (active_after_update hactive v) hnodup
      fun slot hslot => hunfilled slot (List.mem_append_right _ hslot)

theorem deliver_admitted (h : s.Reflects us given filled) (hactive : s.active = .ok r)
    (arrivals : List RoundUpdate)
    (hnodup : (given ++ arrivals.filterMap RoundUpdate.slot?).Nodup)
    (hunfilled : ∀ slot ∈ arrivals.filterMap RoundUpdate.slot?, slot ∉ filled) :
    (s.deliver (s.admitted r arrivals)).2.Reflects (us ++ s.admitted r arrivals)
      (given ++ arrivals.filterMap RoundUpdate.slot?) filled := by
  unfold admitted
  split
  · exact h.deliver hactive arrivals hnodup hunfilled
  · have hmono := h.mono (arrivals.filterMap RoundUpdate.slot?) []
    rwa [List.append_nil] at hmono ⊢

theorem finalize (h : s.Reflects us given filled) (arrivals : List RoundUpdate)
    (hnodup : (given ++ arrivals.filterMap RoundUpdate.slot?).Nodup)
    (hunfilled : ∀ slot ∈ arrivals.filterMap RoundUpdate.slot?, slot ∉ filled) :
    (s.after (.finalize arrivals)).Reflects (s.traceAfter us (.finalize arrivals))
      (given ++ arrivals.filterMap RoundUpdate.slot?) filled := by
  cases hactive : s.active with
  | error fault =>
    have hmono := h.mono (arrivals.filterMap RoundUpdate.slot?) []
    rw [List.append_nil] at hmono
    rwa [after, finalize_eq_error_iff.mpr hactive, traceAfter, hactive]
  | ok r =>
    obtain ⟨ended, hfinal, hvalue⟩ := finalize_of_active hactive arrivals
    have hafter : s.after (.finalize arrivals) = ended.value.2 := by rw [after, hfinal]
    have hslots : ended.value.2.slots = (s.deliver (s.admitted r arrivals)).2.slots :=
      congrArg (·.2.slots) hvalue
    have hlive : ended.value.2.live = some _ := congrArg (·.2.live) hvalue
    rw [hafter]
    refine of_not_active (active_of_terminated hlive rfl) fun slot hslot => ?_
    rw [hslots] at hslot
    exact (h.deliver_admitted hactive arrivals hnodup hunfilled).written slot hslot

theorem fill (h : s.Reflects us given filled) {slot : Slot} (hslot : slot ∉ given)
    (status : Status) : (s.setSlot slot status).Reflects us given (filled ++ [slot]) := by
  have hget (other : Slot) (hother : other ≠ slot) :
      (s.setSlot slot status).slots.get? other = s.slots.get? other :=
    SortedMap.get?_insert_of_ne _ _ hother
  refine ⟨fun other hheld => ?_, h.notes, h.slot_given, fun r other told hr hown htold => ?_⟩
  · by_cases hother : other = slot
    · exact .inr (List.mem_append_right _ (List.mem_singleton.mpr hother))
    · rw [SortedMap.contains, hget other hother] at hheld
      exact (h.written other hheld).imp_right (List.mem_append_left _)
  · have hother : other ≠ slot := fun heq => hslot (heq ▸ h.slot_given r other hr hown)
    exact h.agrees r other told hr hown ((hget other hother).symm.trans htold)

end Rounds.Reflects

/-! ## Runs -/

namespace RoundRun

open Rounds

variable {given filled : List Slot}

theorem reflects_step {run : RoundRun} (h : run.rounds.Reflects run.trace given filled)
    (call : RoundCall) (hnodup : (given ++ call.given).Nodup)
    (hunfilled : ∀ slot ∈ call.given, slot ∉ filled)
    (hfills : ∀ slot ∈ call.filled, slot ∉ given) :
    (run.step call).rounds.Reflects (run.step call).trace (given ++ call.given)
      (filled ++ call.filled) := by
  obtain ⟨s, us⟩ := run
  have hmono := h.mono call.given call.filled
  cases call with
  | start signal =>
    cases hlive : s.live with
    | some r =>
      have hstart : s.start signal = .error (.alreadyLive r.id) := by rw [start, hlive]
      simp only [RoundRun.step, after, traceAfter, hstart]
      exact hmono
    | none =>
      -- a new round has no slot, and has noted nothing
      obtain ⟨told, hstart, hvalue⟩ := start_of_live_none hlive signal
      simp only [RoundRun.step, after, traceAfter, hstart, hvalue]
      refine ⟨hmono.written, fun r hr => ?_, fun r slot hr hown => ?_,
        fun r slot status hr hown => ?_⟩
      · cases (active_eq_ok_iff.mp hr).1
        exact ⟨rfl, rfl, rfl⟩
      · cases (active_eq_ok_iff.mp hr).1
        cases hown
      · cases (active_eq_ok_iff.mp hr).1
        cases hown
  | update u =>
    cases hactive : s.active with
    | error fault =>
      simp only [RoundRun.step, after, traceAfter, update_of_error hactive]
      exact hmono
    | ok r =>
      have hapart := (List.nodup_append.mp hnodup).2.2
      have hnew (slot : Slot) (hslot : u.slot? = some slot) : slot ∉ given ∧ slot ∉ filled := by
        have hmem : slot ∈ (RoundCall.update u).given := Option.mem_toList.mpr hslot
        exact ⟨fun hgiven => hapart slot hgiven slot hmem rfl, hunfilled slot hmem⟩
      have htrace : s.traceAfter us (.update u) = us ++ [u] := by
        rw [traceAfter, update_of_active hactive]
      have hnone : filled ++ (RoundCall.update u).filled = filled := List.append_nil _
      rw [RoundRun.step, htrace, hnone]
      exact h.update hactive u hnew
  | finalize arrivals =>
    have hnone : filled ++ (RoundCall.finalize arrivals).filled = filled := List.append_nil _
    rw [hnone]
    exact h.finalize arrivals hnodup hunfilled
  | close force =>
    cases hclose : s.close force with
    | error fault =>
      simp only [RoundRun.step, after, traceAfter, hclose]
      exact hmono
    | ok closed =>
      simp only [RoundRun.step, after, traceAfter, hclose, value_close hclose]
      exact .of_not_active rfl hmono.written
  | drain => exact ⟨hmono.written, hmono.notes, hmono.slot_given, hmono.agrees⟩
  | fill slot status =>
    have hnone : given ++ (RoundCall.fill slot status).given = given := List.append_nil _
    rw [hnone]
    exact h.fill (hfills slot (List.mem_singleton.mpr rfl)) status

theorem reflects_of (limit : Nat) {calls : List RoundCall} (hfresh : FreshSlots calls) :
    (of limit calls).rounds.Reflects (of limit calls).trace (calls.flatMap RoundCall.given)
      (calls.flatMap RoundCall.filled) := by
  induction calls using List.reverseRecOn with
  | nil => exact .of_not_active rfl fun slot hslot => (nomatch hslot)
  | append_singleton calls call ih =>
    have hbefore := ih hfresh.of_concat
    obtain ⟨hnodup, hunfilled⟩ := hfresh
    simp only [List.flatMap_append, List.flatMap_singleton] at hnodup hunfilled ⊢
    rw [of_concat]
    refine reflects_step hbefore call hnodup (fun slot hgiven hfilled => ?_)
      fun slot hfilled hgiven => ?_
    · exact hunfilled slot (List.mem_append_left _ hfilled) (List.mem_append_right _ hgiven)
    · exact hunfilled slot (List.mem_append_right _ hfilled) (List.mem_append_left _ hgiven)

theorem trace_finalize (limit : Nat) (calls : List RoundCall) {r : Round}
    (hactive : (of limit calls).rounds.active = .ok r) (arrivals : List RoundUpdate) :
    (of limit (calls ++ [.finalize arrivals])).trace =
      (of limit calls).trace ++ (of limit calls).rounds.admitted r arrivals := by
  rw [of_concat]
  simp only [RoundRun.step, traceAfter, hactive, admitted]
  split
  · rfl
  · exact (List.append_nil _).symm

/-- When a round ends, it is observed if it has taken a target, and not otherwise, and the log keeps
the observation unless it knows it. What the round shows is
determined by the updates that it has taken before its end and during the wait, in whatever order:
the path of the latest target, the status of the latest response, if there was one, and just the
attributes that some update names as changed. This needs a slot of its own for every target and
every destination, which nobody else fills. -/
theorem finalize_observes (limit : Nat) (calls : List RoundCall) (arrivals : List RoundUpdate)
    (hfresh : FreshSlots (calls ++ [.finalize arrivals])) {r : Round}
    (hlive : (of limit calls).rounds.live = some r) (hgoing : r.status ≠ .terminated) :
    let before := (of limit calls).rounds
    let taken := (of limit (calls ++ [.finalize arrivals])).trace
    ∃ ended last shown, before.finalize arrivals = .ok ended ∧
      ended.value.2.live = some last ∧ ended.value.2.observation last = shown ∧
      ended.value.2.log = shown.elim before.log (before.log.record ·) ∧
      ended.value.2.log.records =
        before.log.records ++ (shown.filter fun o => !before.log.knows o).toList ∧
      (shown.isSome = true ↔
        ∃ destination path slot, RoundUpdate.target destination path slot ∈ taken) ∧
      ∀ o, shown = some o →
        o.round = r.id ∧ latestPath taken = some o.path ∧ o.status = latestStatus taken ∧
          ∀ p, o.changed.contains p = true ↔
            ∃ paths, RoundUpdate.changed paths ∈ taken ∧ paths.contains p = true := by
  intro before taken
  have hactive : before.active = .ok r := active_eq_ok_iff.mpr ⟨hlive, hgoing⟩
  have htaken : taken = _ := trace_finalize limit calls hactive arrivals
  have hbefore := reflects_of limit hfresh.of_concat
  obtain ⟨hnodup, hunfilled⟩ := hfresh
  simp only [List.flatMap_append, List.flatMap_singleton] at hnodup hunfilled
  have hdelivered := hbefore.deliver_admitted hactive arrivals hnodup fun slot hslot hfilled =>
    hunfilled slot (List.mem_append_left _ hfilled) (List.mem_append_right _ hslot)
  rw [← htaken] at hdelivered
  have hshown := hdelivered.observation_eq (deliver_of_active hactive _).2
  rw [r.id_foldl_update] at hshown
  obtain ⟨ended, hfinal, hvalue⟩ := finalize_of_active hactive arrivals
  have hended : ended.value.2.live = some _ := congrArg (·.2.live) hvalue
  have hslots : ended.value.2.slots = (before.deliver (before.admitted r arrivals)).2.slots :=
    congrArg (·.2.slots) hvalue
  have hlog : ended.value.2.log =
      (Trace.observation r.id taken).elim before.log (before.log.record ·) := by
    rw [hvalue, ← hshown]
  refine ⟨ended, _, Trace.observation r.id taken, hfinal, hended, ?_, hlog, ?_, ?_,
    fun o ho => ?_⟩
  · -- the end of a round changes nothing of what is looked at
    rw [← hshown, Rounds.observation, hslots]
    rfl
  · rw [hlog]
    cases Trace.observation r.id taken with
    | none => exact (List.append_nil _).symm
    | some o => exact before.log.records_record o
  · rw [Trace.observation, Option.isSome_map, latestPath_isSome_iff]
  · obtain ⟨path, hpath, rfl⟩ := Option.map_eq_some_iff.mp ho
    exact ⟨rfl, hpath, rfl, fun p => contains_changes⟩

/-- A response came before any target, and the target is replaced while a report is waited for. The
status is still shown, with the path of the new target and the changes from both sides of the
wait. -/
theorem finalize_observes_replaced :
    let p : CommandPath := ⟨.invoke, 1, 6, 2⟩
    let q : CommandPath := ⟨.write, 1, 8, 0⟩
    let early : AttributePath := ⟨1, 1, 6, 0⟩
    let late : AttributePath := ⟨1, 1, 8, 0⟩
    let calls : List RoundCall :=
      [.start .own, .update (.response .success), .update (.target 1 p (.numbered 0)),
        .update (.changed (.ofList [early])), .update (.flags true true),
        .fill (.numbered 7) .failure]
    let arrivals : List RoundUpdate := [.target 1 q (.numbered 1), .changed (.ofList [late])]
    ∃ ended last o, (of 3 calls).rounds.finalize arrivals = .ok ended ∧
      ended.value.2.live = some last ∧ ended.value.2.observation last = some o ∧
      ended.value.2.log.records = [o] ∧ o.round = 0 ∧ o.path = q ∧ o.status = some .success ∧
      o.changed.contains early = true ∧ o.changed.contains late = true := by
  intro p q early late calls arrivals
  have hfresh : FreshSlots (calls ++ [.finalize arrivals]) := ⟨by decide, by decide⟩
  obtain ⟨ended, last, shown, hfinal, hended, hobserved, -, hrecords, hsome, hshown⟩ :=
    finalize_observes 3 calls arrivals hfresh rfl (by decide)
  have htaken : (of 3 (calls ++ [.finalize arrivals])).trace =
      [.response .success, .target 1 p (.numbered 0), .changed (.ofList [early]),
        .flags true true] ++ arrivals := rfl
  rw [htaken] at hsome hshown
  obtain ⟨o, rfl⟩ := Option.isSome_iff_exists.mp (hsome.mpr ⟨1, p, .numbered 0, by simp⟩)
  obtain ⟨hround, hpath, hstatus, hchanged⟩ := hshown o rfl
  refine ⟨ended, last, o, hfinal, hended, hobserved, hrecords, hround, ?_, hstatus, ?_, ?_⟩
  · exact (Option.some.inj hpath).symm
  · exact (hchanged early).mpr ⟨.ofList [early], by simp, by decide⟩
  · exact (hchanged late).mpr ⟨.ofList [late], by simp [arrivals], by decide⟩

end RoundRun

end DeviceTrial
