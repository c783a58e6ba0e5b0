import DeviceTrial.Proofs.Round.Observed

namespace DeviceTrial

theorem Round.contains_changed_foldl (r : Round) (us : List RoundUpdate) (p : AttributePath) :
    (us.foldl Round.update r).changed.contains p = true ↔
      r.changed.contains p = true ∨ ∃ u ∈ us, u.paths.contains p = true := by
  induction us generalizing r with
  | nil => simp
  | cons u us ih =>
    rw [List.foldl_cons, ih, r.changed_update, SortedMap.contains_union, or_assoc]
    simp only [List.mem_cons, or_and_right, exists_or, exists_eq_left]

theorem ObservationLog.mem_records_elim {l : ObservationLog} {x : Option Observation}
    {o : Observation} (h : o ∈ (x.elim l (l.record ·)).records) :
    o ∈ l.records ∨ x = some o := by
  cases x with
  | none => exact .inl h
  | some new =>
    change o ∈ (l.record new).records at h
    unfold record at h
    split at h
    · exact .inl h
    · exact (List.mem_append.mp h).imp_right fun hnew => by rw [List.mem_singleton.mp hnew]

def RoundCall.updates : RoundCall → List RoundUpdate
  | update u => [u]
  | finalize arrivals => arrivals
  | _ => []

namespace Rounds

variable {s : Rounds} {p : AttributePath}

/-- The live round or an observation of the log names a path as changed. -/
def Names (s : Rounds) (p : AttributePath) : Prop :=
  (∃ r, s.live = some r ∧ r.changed.contains p = true) ∨
    ∃ o ∈ s.log.records, o.changed.contains p = true

theorem Names.of_log {t : Rounds} (h : t.Names p) (hlog : t.log.records ⊆ s.log.records)
    (hlive : ∀ r, t.live = some r → r.changed.contains p = true → s.Names p) : s.Names p := by
  obtain ⟨r, hr, hnamed⟩ | ⟨o, ho, hnamed⟩ := h
  · exact hlive r hr hnamed
  · exact .inr ⟨o, hlog ho, hnamed⟩

theorem names_after_update {u : RoundUpdate} (h : (s.after (.update u)).Names p) :
    s.Names p ∨ u.paths.contains p = true := by
  cases hactive : s.active with
  | error fault =>
    rw [after_update_of_error hactive] at h
    exact .inl h
  | ok r =>
    rw [after_update_of_active hactive] at h
    obtain ⟨q, hq, hnamed⟩ | ⟨o, ho, hnamed⟩ := h
    · cases hq
      rw [r.changed_update, SortedMap.contains_union] at hnamed
      exact hnamed.imp_left fun hold => .inl ⟨r, (active_eq_ok_iff.mp hactive).1, hold⟩
    · refine .inl (.inr ⟨o, ?_, hnamed⟩)
      rwa [← (s.sameBooks_effects r u).log]

/-- The end of a round hands on what the round names, with what the updates add that it lets in. -/
theorem names_after_finalize {arrivals : List RoundUpdate}
    (h : (s.after (.finalize arrivals)).Names p) :
    s.Names p ∨ ∃ u ∈ arrivals, u.paths.contains p = true := by
  cases hactive : s.active with
  | error fault =>
    rw [after, finalize_eq_error_iff.mpr hactive] at h
    exact .inl h
  | ok r =>
    obtain ⟨ended, hfinal, hvalue⟩ := finalize_of_active hactive arrivals
    have hadmitted : s.admitted r arrivals ⊆ arrivals := by
      unfold admitted
      split
      · exact List.Subset.refl _
      · exact List.nil_subset _
    have hreached (hnamed :
        ((s.admitted r arrivals).foldl Round.update r).changed.contains p = true) :
        s.Names p ∨ ∃ u ∈ arrivals, u.paths.contains p = true := by
      obtain hold | ⟨u, hu, hnamed⟩ := (r.contains_changed_foldl _ p).mp hnamed
      · exact .inl (.inl ⟨r, (active_eq_ok_iff.mp hactive).1, hold⟩)
      · exact .inr ⟨u, hadmitted hu, hnamed⟩
    rw [after, hfinal] at h
    change ended.value.2.Names p at h
    rw [hvalue] at h
    obtain ⟨q, hq, hnamed⟩ | ⟨o, ho, hnamed⟩ := h
    · cases hq
      exact hreached hnamed
    · -- the observation that the end may add names what the round named
      obtain hold | hnew := ObservationLog.mem_records_elim ho
      · exact .inl (.inr ⟨o, hold, hnamed⟩)
      · obtain ⟨path, -, rfl⟩ := Option.map_eq_some_iff.mp hnew
        exact hreached hnamed

/-- What is named after a call was named before, or by an update that came with the call. -/
theorem names_after {call : RoundCall} (h : (s.after call).Names p) :
    s.Names p ∨ ∃ u ∈ call.updates, u.paths.contains p = true := by
  cases call with
  | update u => exact (names_after_update h).imp_right fun hu => ⟨u, List.mem_singleton_self u, hu⟩
  | finalize arrivals => exact names_after_finalize h
  | start signal =>
    refine .inl ?_
    cases hstart : s.start signal with
    | error fault => rwa [after, hstart] at h
    | ok opened =>
      obtain ⟨hnone, -⟩ := live_start hstart
      obtain ⟨_, hsame, hvalue⟩ := start_of_live_none hnone signal
      cases hsame.symm.trans hstart
      rw [after, hstart] at h
      change opened.value.2.Names p at h
      rw [hvalue] at h
      refine h.of_log (List.Subset.refl _) fun r hr hnamed => ?_
      cases hr
      cases hnamed
  | close force =>
    refine .inl ?_
    cases hclose : s.close force with
    | error fault => rwa [after, hclose] at h
    | ok closed =>
      rw [after, hclose] at h
      change closed.value.Names p at h
      rw [value_close hclose] at h
      refine h.of_log (List.Subset.refl _) fun r hr _ => ?_
      cases hr
  | drain => exact .inl (h.of_log (List.nil_subset _) fun r hr hnamed => .inl ⟨r, hr, hnamed⟩)
  | fill slot status => exact .inl h

end Rounds

end DeviceTrial
