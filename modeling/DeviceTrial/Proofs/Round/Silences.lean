import Mathlib.Data.List.Induction
import DeviceTrial.Proofs.History
import DeviceTrial.Proofs.Round.Runs

namespace DeviceTrial

namespace Rounds

variable {s : Rounds} {r : Round} {p : CommandPath}

theorem outcome_terminate (s : Rounds) (r : Round) (silent : Bool) :
    (s.terminate r silent).value.1 = if silent then .silent else .completed r.status := by
  rw [value_terminate]

theorem waits_eq_true_iff (hp : r.path = some p) :
    s.waits r = true ↔ r.needsReport = true ∧ s.silencesOf p < s.limit := by
  rw [waits, hp, Bool.and_eq_true, Option.all_some, expects, decide_eq_true_eq]

/-- Two states agree on the counters of the paths and on their limit. -/
def SameSilences (s t : Rounds) : Prop := t.silences = s.silences ∧ t.limit = s.limit

namespace SameSilences

variable {t : Rounds}

theorem refl (s : Rounds) : s.SameSilences s := ⟨rfl, rfl⟩

theorem silencesOf (h : s.SameSilences t) (p : CommandPath) : t.silencesOf p = s.silencesOf p := by
  rw [Rounds.silencesOf, h.1, Rounds.silencesOf]

end SameSilences

theorem SameBooks.sameSilences {t : Rounds} (h : s.SameBooks t) : s.SameSilences t :=
  ⟨h.silences, h.limit⟩

/-- A call that ends no round leaves every counter alone. -/
theorem sameSilences_after {call : RoundCall} (h : ∀ arrivals, call ≠ .finalize arrivals) :
    s.SameSilences (s.after call) := by
  cases call with
  | start signal =>
    unfold after start
    cases s.live with
    | none => exact ⟨rfl, rfl⟩
    | some r => exact .refl s
  | update u =>
    rw [after]
    cases hupdate : s.update u with
    | error fault => exact .refl s
    | ok x => exact (sameBooks_update hupdate).sameSilences
  | finalize arrivals => exact (h arrivals rfl).elim
  | close force =>
    unfold after close
    cases s.live with
    | none => cases force <;> exact .refl s
    | some r =>
      by_cases hclose : r.status = .terminated ∨ force = true
      · simp only [if_pos hclose]
        exact ⟨rfl, rfl⟩
      · simp only [if_neg hclose]
        exact .refl s
  | drain => exact ⟨rfl, rfl⟩
  | fill slot status => exact ⟨rfl, rfl⟩

/-- The outcome of a wait on the path: of the end of a round that has the path when its end is
called for, is told to wait, and finds the counter of the path below the limit. -/
def wait? (s : Rounds) (p : CommandPath) : RoundCall → Option RoundOutcome
  | .finalize arrivals =>
    match s.active, s.finalize arrivals with
    | .ok r, .ok ended =>
      if r.path = some p ∧ r.needsReport = true ∧ s.silencesOf p < s.limit then some ended.value.1
      else none
    | _, _ => none
  | _ => none

def counted (before : Nat) : Option RoundOutcome → Nat
  | none => before
  | some .silent => before + 1
  | some (.completed _) => 0

theorem wait?_of_active (h : s.active = .ok r) {arrivals : List RoundUpdate}
    {ended : Told (RoundOutcome × Rounds)} (hfinal : s.finalize arrivals = .ok ended) :
    s.wait? p (.finalize arrivals) =
      if r.path = some p ∧ s.waits r = true then some ended.value.1 else none := by
  simp only [wait?, h, hfinal]
  by_cases hp : r.path = some p
  · simp only [waits_eq_true_iff hp]
  · simp only [hp, false_and]

theorem silencesOf_after_finalize (h : s.active = .ok r) (arrivals : List RoundUpdate) :
    (s.after (.finalize arrivals)).limit = s.limit ∧
      ∀ p, (s.after (.finalize arrivals)).silencesOf p =
        counted (s.silencesOf p) (s.wait? p (.finalize arrivals)) := by
  obtain ⟨ended, hfinal, hvalue⟩ := finalize_of_active h arrivals
  let silent := s.waits r && !((s.admitted r arrivals).foldl Round.update r).isPast
  have houtcome : ended.value.1 = if silent then .silent else .completed _ :=
    congrArg (·.1) hvalue
  have hsilences : ended.value.2.silences = s.silencesAfter r silent :=
    congrArg (·.2.silences) hvalue
  have hafter : s.after (.finalize arrivals) = ended.value.2 := by rw [after, hfinal]
  rw [hafter]
  refine ⟨(congrArg (·.2.limit) hvalue).trans (s.sameBooks_deliver _).limit, fun p => ?_⟩
  rw [wait?_of_active h hfinal, houtcome, Rounds.silencesOf, hsilences]
  by_cases hown : r.path = some p
  · by_cases hw : s.waits r = true
    · have hwait : r.path = some p ∧ s.waits r = true := ⟨hown, hw⟩
      rw [get?_silencesAfter_self hw hown, if_pos hwait]
      cases silent <;> rfl
    · rw [silencesAfter, if_neg hw, if_neg fun hboth => hw hboth.2]
      rfl
  · -- the round counts for its own path and for no other
    rw [get?_silencesAfter_of_ne hown, if_neg fun hboth => hown hboth.1]
    rfl

/-- A call changes the counter of a path by the wait on the path that it ends, if it ends one, and
never the limit. -/
theorem silencesOf_after (s : Rounds) (call : RoundCall) :
    (s.after call).limit = s.limit ∧
      ∀ p, (s.after call).silencesOf p = counted (s.silencesOf p) (s.wait? p call) := by
  by_cases hcall : ∃ arrivals, call = .finalize arrivals
  · obtain ⟨arrivals, rfl⟩ := hcall
    cases hactive : s.active with
    | ok r => exact silencesOf_after_finalize hactive arrivals
    | error fault =>
      have hfinal : s.finalize arrivals = .error fault := finalize_eq_error_iff.mpr hactive
      have hsame : s.after (.finalize arrivals) = s := by rw [after, hfinal]
      have hnone (p : CommandPath) : s.wait? p (.finalize arrivals) = none := by rw [wait?, hactive]
      rw [hsame]
      refine ⟨rfl, fun p => ?_⟩
      rw [hnone]
      rfl
  · have hother : ∀ arrivals, call ≠ .finalize arrivals := fun arrivals h => hcall ⟨arrivals, h⟩
    have hsame := s.sameSilences_after hother
    refine ⟨hsame.2, fun p => ?_⟩
    have hnone : s.wait? p call = none := by
      cases call with
      | finalize arrivals => exact (hother arrivals rfl).elim
      | start | update | close | drain | fill => rfl
    rw [hnone]
    exact hsame.silencesOf p

theorem wait?_eq_some {call : RoundCall} {o : RoundOutcome} (h : s.wait? p call = some o) :
    (∃ r, s.live = some r ∧ r.path = some p) ∧ s.silencesOf p < s.limit := by
  cases call with
  | finalize arrivals =>
    simp only [wait?] at h
    split at h
    · rename_i r ended hactive hfinal
      split at h
      · rename_i hwaits
        exact ⟨⟨r, (active_eq_ok_iff.mp hactive).1, hwaits.1⟩, hwaits.2.2⟩
      · cases h
    · cases h
  | start | update | close | drain | fill => cases h

end Rounds

namespace RoundRun

open Rounds

theorem of_concat (limit : Nat) (calls : List RoundCall) (call : RoundCall) :
    of limit (calls ++ [call]) = (of limit calls).step call :=
  List.foldl_append ..

theorem limit_of (limit : Nat) (calls : List RoundCall) :
    (of limit calls).rounds.limit = limit := by
  induction calls using List.reverseRecOn with
  | nil => rfl
  | append_singleton calls call ih =>
    rw [of_concat]
    exact (silencesOf_after _ call).1.trans ih

def waitsOn (limit : Nat) (p : CommandPath) (calls : List RoundCall) : List RoundOutcome :=
  transcript (fun past call => (of limit past).rounds.wait? p call) calls

theorem silencesOf_of (limit : Nat) (calls : List RoundCall) (p : CommandPath) :
    (of limit calls).rounds.silencesOf p =
      trailing (fun o => o = .silent) (waitsOn limit p calls) := by
  induction calls using List.reverseRecOn with
  | nil => rfl
  | append_singleton calls call ih =>
    -- a call is one more wait on the path, or none
    rw [of_concat, waitsOn, transcript_concat, ← waitsOn]
    refine ((silencesOf_after _ call).2 p).trans ?_
    rw [ih]
    cases (of limit calls).rounds.wait? p call with
    | none => simp [counted]
    | some o =>
      rw [Option.toList_some, trailing_concat]
      cases o <;> rfl

theorem silencesOf_le_limit (limit : Nat) (calls : List RoundCall) (p : CommandPath) :
    (of limit calls).rounds.silencesOf p ≤ limit := by
  induction calls using List.reverseRecOn with
  | nil => exact Nat.zero_le _
  | append_singleton calls call ih =>
    rw [of_concat]
    refine Nat.le_trans (Nat.le_of_eq ((silencesOf_after _ call).2 p)) ?_
    cases hwait : (of limit calls).rounds.wait? p call with
    | none => exact ih
    | some o =>
      -- only a wait below the limit is counted
      have hbelow := (wait?_eq_some hwait).2
      rw [limit_of] at hbelow
      cases o with
      | silent => exact hbelow
      | completed status => exact Nat.zero_le _

/-- At the limit the counter of a path stays as it is, since no round on the path waits. -/
theorem silencesOf_of_eq_limit {limit : Nat} {calls : List RoundCall} {p : CommandPath}
    (h : (of limit calls).rounds.silencesOf p = limit) (later : List RoundCall) :
    (of limit (calls ++ later)).rounds.silencesOf p = limit := by
  induction later using List.reverseRecOn with
  | nil => rwa [List.append_nil]
  | append_singleton later call ih =>
    rw [← List.append_assoc, of_concat]
    refine ((silencesOf_after _ call).2 p).trans ?_
    cases hwait : (of limit (calls ++ later)).rounds.wait? p call with
    | none => exact ih
    | some o =>
      have hbelow := (wait?_eq_some hwait).2
      rw [limit_of, ih] at hbelow
      exact (Nat.lt_irrefl _ hbelow).elim

/-- The counter of a path is the number of waits in vain on the path since the latest that brought a
report. It never exceeds the limit, and no call on a round with another path changes it. Once it is
at the limit it stays there: no report is waited for on the path any more, and a round on it ends
with the status that it has, whatever arrives. -/
theorem silencesOf_eq_trailing (limit : Nat) (calls : List RoundCall) (p : CommandPath) :
    let s := (of limit calls).rounds
    s.silencesOf p = trailing (fun o => o = .silent) (waitsOn limit p calls) ∧
      s.silencesOf p ≤ limit ∧
      (∀ call, (∀ r, s.live = some r → r.path ≠ some p) →
        (s.after call).silencesOf p = s.silencesOf p) ∧
      (s.silencesOf p = limit → ∀ later : List RoundCall,
        let t := (of limit (calls ++ later)).rounds
        t.silencesOf p = limit ∧ t.expects p = false ∧
          ∀ r arrivals, t.active = .ok r → r.path = some p →
            ∃ ended, t.finalize arrivals = .ok ended ∧ t.finalize [] = .ok ended ∧
              ended.value.1 = .completed r.status) := by
  intro s
  refine ⟨silencesOf_of limit calls p, silencesOf_le_limit limit calls p, ?_, ?_⟩
  · intro call hother
    have hnone : s.wait? p call = none := by
      cases hwait : s.wait? p call with
      | none => rfl
      | some o =>
        obtain ⟨r, hlive, hpath⟩ := (wait?_eq_some hwait).1
        exact (hother r hlive hpath).elim
    rw [(silencesOf_after s call).2 p, hnone]
    rfl
  · intro hlimit later t
    have hcount : t.silencesOf p = limit := silencesOf_of_eq_limit hlimit later
    have hexpects : t.expects p = false := by
      rw [expects, hcount, limit_of]
      exact decide_eq_false (Nat.lt_irrefl limit)
    refine ⟨hcount, hexpects, ?_⟩
    intro r arrivals hactive hpath
    have hwaits : t.waits r = false := by
      rw [Rounds.waits, hpath, Option.all_some, hexpects, Bool.and_false]
    exact ⟨_, finalize_of_not_waits hactive hwaits arrivals,
      finalize_of_not_waits hactive hwaits [], outcome_terminate t r false⟩

/-- After one wait in vain, with a limit of one, the next round on the path does not wait for the
report that is about to arrive. -/
theorem silencesOf_eq_trailing_spent :
    let p : CommandPath := ⟨.invoke, 1, 6, 2⟩
    let opening : List RoundCall :=
      [.start .own, .update (.target 1 p (.own 0)), .update (.flags true true),
        .update (.response .success)]
    let calls := opening ++ [.finalize []]
    let t := (of 1 (calls ++ .close false :: opening)).rounds
    waitsOn 1 p calls = [.silent] ∧ (of 1 calls).rounds.silencesOf p = 1 ∧ t.expects p = false ∧
      ∃ ended, t.finalize [.changed (.ofList [⟨1, 1, 6, 0⟩])] = .ok ended ∧
        t.finalize [] = .ok ended ∧ ended.value.1 = .completed .invokeResponse := by
  intro p opening calls t
  obtain ⟨hcount, -, -, hspent⟩ := silencesOf_eq_trailing 1 calls p
  have hwaits : waitsOn 1 p calls = [.silent] := by decide
  have hone : (of 1 calls).rounds.silencesOf p = 1 := hcount.trans (by rw [hwaits]; rfl)
  obtain ⟨-, hexpects, hends⟩ := hspent hone (.close false :: opening)
  exact ⟨hwaits, hone, hexpects, hends _ _ rfl rfl⟩

end RoundRun

end DeviceTrial
