import Mathlib.Data.List.Induction
import DeviceTrial.Proofs.History
import DeviceTrial.Proofs.Judge.Rules

namespace DeviceTrial

def Outcome.isRefined : Outcome → Bool
  | refined .. => true
  | plain _ => false

namespace JudgeCall

def status? : JudgeCall → Option Status
  | consume _ (.plain status) => some status
  | _ => none

/-- The call brings a status that is held against a rule. -/
def isRuled (call : JudgeCall) : Bool := call.status?.any fun status => status ≠ .timeout

/-- How many timeouts there were since the latest other status. -/
def silenceAfter (calls : List JudgeCall) : Nat :=
  trailing (fun status => status = .timeout) (calls.filterMap status?)

/-- The rule that was granted for a path, or the stand-in. -/
def ruleAfter (past : List JudgeCall) (path : CommandPath) : Rule :=
  (((grants past).find? fun r => r.1 = path).map fun r => Rule.new path r.2).getD .missing

def rulingAfter (past : List JudgeCall) (path : CommandPath) (status : Status) : Ruling :=
  if (ruleAfter past path).accepts status then ⟨ruleAfter past path, true, .ok⟩
  else ⟨ruleAfter past path, false, .unexpected⟩

/-- The verdict on what a call brings. There is none on a refined status. -/
def verdictAfter? (patience : Nat) (past : List JudgeCall) : JudgeCall → Option Verdict
  | consume path (.plain status) => some <|
    if status = .timeout then
      if max patience 1 ≤ silenceAfter past + 1 then .unreachable else .timeout
    else (rulingAfter past path status).verdict
  | _ => none

def verdicts (patience : Nat) (calls : List JudgeCall) : List Verdict :=
  transcript (verdictAfter? patience) calls

def tallyAfter (patience : Nat) (calls : List JudgeCall) : Tally where
  consumed := (calls.filterMap outcome?).length
  ok := (verdicts patience calls).count .ok
  unexpected := (verdicts patience calls).count .unexpected
  timeouts := (verdicts patience calls).count .timeout
  unreachable := (verdicts patience calls).count .unreachable
  refined := (calls.filterMap outcome?).countP (·.isRefined)

theorem silenceAfter_concat (calls : List JudgeCall) (call : JudgeCall) :
    silenceAfter (calls ++ [call]) = match call.status? with
      | none => silenceAfter calls
      | some status => if status = .timeout then silenceAfter calls + 1 else 0 := by
  rw [silenceAfter, List.filterMap_append]
  cases hstatus : call.status? with
  | none => simp [hstatus, silenceAfter]
  | some status =>
    rw [List.filterMap_cons_some hstatus, List.filterMap_nil, trailing_concat]
    simp [silenceAfter]

theorem tallyAfter_concat (patience : Nat) (calls : List JudgeCall) (call : JudgeCall) :
    tallyAfter patience (calls ++ [call]) =
      let before := tallyAfter patience calls
      let given (v : Verdict) : Nat := if verdictAfter? patience calls call = some v then 1 else 0
      { consumed := before.consumed + if call.outcome?.isSome then 1 else 0
        ok := before.ok + given .ok
        unexpected := before.unexpected + given .unexpected
        timeouts := before.timeouts + given .timeout
        unreachable := before.unreachable + given .unreachable
        refined := before.refined + if call.outcome?.any (·.isRefined) then 1 else 0 } := by
  have hverdicts (v : Verdict) : (verdicts patience (calls ++ [call])).count v =
      (verdicts patience calls).count v +
        if verdictAfter? patience calls call = some v then 1 else 0 := by
    rw [verdicts, transcript_concat, List.count_append, ← verdicts]
    cases verdictAfter? patience calls call with
    | none => rfl
    | some w => simp [List.count_singleton]
  unfold tallyAfter
  simp only [hverdicts, List.filterMap_append, List.length_append, List.countP_append]
  cases houtcome : call.outcome? with
  | none => simp [houtcome]
  | some outcome => simp [houtcome, List.countP_singleton]

end JudgeCall

open JudgeCall (grants isRuled silenceAfter ruleAfter rulingAfter verdictAfter? tallyAfter)

/-! ## One outcome -/

namespace Judge

variable (j : Judge) (path : CommandPath)

/-- The judge that has moved its verdict back and counted an outcome. -/
def moved : Judge :=
  { j with last := j.current, tally := { j.tally with consumed := j.tally.consumed + 1 } }

theorem value_consume_timeout :
    (j.consume path (.plain .timeout)).value = j.moved.consumeTimeout := rfl

theorem value_consume_answer {status : Status} (h : status ≠ .timeout) :
    (j.consume path (.plain status)).value = j.moved.consumeAnswer path status := by
  simp only [consume, if_neg h, Told.value_bind, Told.value_pure]
  rfl

theorem last_consume (outcome : Outcome) : (j.consume path outcome).value.last = j.current := by
  cases outcome with
  | refined status code => rfl
  | plain status =>
    by_cases h : status = .timeout
    · rw [h, value_consume_timeout, consumeTimeout]
      split <;> rfl
    · rw [value_consume_answer j path h, consumeAnswer]
      split <;> rfl

theorem ruling_consume {outcome : Outcome} (h : (JudgeCall.consume path outcome).isRuled = false) :
    (j.consume path outcome).value.ruling = j.ruling := by
  cases outcome with
  | refined status code => rfl
  | plain status =>
    have htimeout : status = .timeout := by
      simpa [isRuled, JudgeCall.status?] using h
    rw [htimeout, value_consume_timeout, consumeTimeout]
    split <;> rfl

theorem patience_consume (outcome : Outcome) :
    (j.consume path outcome).value.patience = j.patience := by
  cases outcome with
  | refined status code => rfl
  | plain status =>
    by_cases h : status = .timeout
    · rw [h, value_consume_timeout, consumeTimeout]
      split <;> rfl
    · rw [value_consume_answer j path h, consumeAnswer]
      split <;> rfl

theorem silence_consume (status : Status) :
    (j.consume path (.plain status)).value.silence =
      if status = .timeout then j.silence + 1 else 0 := by
  by_cases h : status = .timeout
  · rw [if_pos h, h, value_consume_timeout, consumeTimeout]
    split <;> rfl
  · rw [if_neg h, value_consume_answer j path h, consumeAnswer]
    split <;> rfl

/-- A status makes the device unreachable if it brings the silence up to the patience, provided that
there is any patience at all. -/
theorem current_consume_eq_unreachable_iff (hpatience : 1 ≤ j.patience) (status : Status) :
    (j.consume path (.plain status)).value.current = .unreachable ↔
      j.patience ≤ (j.consume path (.plain status)).value.silence := by
  rw [silence_consume]
  by_cases h : status = .timeout
  · rw [if_pos h, h, value_consume_timeout, consumeTimeout]
    have hmoved : j.moved.patience = j.patience ∧ j.moved.silence = j.silence := ⟨rfl, rfl⟩
    rw [hmoved.1, hmoved.2]
    split <;> simp_all
  · rw [if_neg h, value_consume_answer j path h, consumeAnswer]
    split <;> simp <;> omega

theorem tally_consume (status : Status) :
    let next := (j.consume path (.plain status)).value
    let given (v : Verdict) : Nat := if next.current = v then 1 else 0
    next.tally =
      { consumed := j.tally.consumed + 1
        ok := j.tally.ok + given .ok
        unexpected := j.tally.unexpected + given .unexpected
        timeouts := j.tally.timeouts + given .timeout
        unreachable := j.tally.unreachable + given .unreachable
        refined := j.tally.refined } := by
  by_cases h : status = .timeout
  · rw [h, value_consume_timeout, consumeTimeout]
    split <;> rfl
  · rw [value_consume_answer j path h, consumeAnswer]
    split <;> rfl

/-! ## Judges and their calls -/

/-- The judge stands where a new one stands after the calls. -/
structure Follows (patience : Nat) (calls : List JudgeCall) : Prop where
  registers : Registers j.rules (grants calls)
  patience_eq : j.patience = max patience 1
  silence_eq : j.silence = silenceAfter calls
  tally_eq : j.tally = tallyAfter patience calls

end Judge

theorem Judge.follows_new (patience : Nat) : (Judge.new patience).Follows patience [] :=
  ⟨.empty, rfl, rfl, rfl⟩

namespace Judge.Follows

variable {j : Judge} {patience : Nat} {calls : List JudgeCall} (h : j.Follows patience calls)
include h

theorem ruleFor_eq (path : CommandPath) : j.ruleFor path = ruleAfter calls path := by
  rw [Judge.ruleFor, ruleAfter]
  congr 1
  cases hfind : (grants calls).find? fun r => r.1 = path with
  | some request =>
    have hpath : request.1 = path := by simpa using List.find?_some hfind
    have hmem : (path, request.2) ∈ grants calls := hpath ▸ List.mem_of_find?_eq_some hfind
    exact (h.registers path _).mpr ⟨_, hmem, rfl⟩
  | none =>
    cases hget : j.rules.get? path with
    | none => rfl
    | some r =>
      obtain ⟨extras, hmem, -⟩ := (h.registers path r).mp hget
      have hother := List.find?_eq_none.mp hfind _ hmem
      simp at hother

theorem current_consume (path : CommandPath) (status : Status) :
    verdictAfter? patience calls (.consume path (.plain status)) =
      some (j.consume path (.plain status)).value.current := by
  rw [verdictAfter?]
  by_cases hstatus : status = .timeout
  · rw [if_pos hstatus, hstatus, value_consume_timeout, consumeTimeout]
    simp only [moved, h.patience_eq, h.silence_eq]
    split <;> rfl
  · rw [if_neg hstatus, value_consume_answer j path hstatus, consumeAnswer, rulingAfter]
    have hrule : j.moved.ruleFor path = ruleAfter calls path := h.ruleFor_eq path
    simp only [hrule]
    split <;> rfl

theorem ruling_consume {path : CommandPath} {status : Status} (hstatus : status ≠ .timeout) :
    (j.consume path (.plain status)).value.ruling = some (rulingAfter calls path status) := by
  rw [value_consume_answer j path hstatus, consumeAnswer, rulingAfter]
  have hrule : j.moved.ruleFor path = ruleAfter calls path := h.ruleFor_eq path
  simp only [hrule]
  split <;> rfl

/-- Registering rules touches nothing else. -/
theorem register {call : JudgeCall} (hcall : call.outcome? = none) :
    (j.after call).Follows patience (calls ++ [call]) := by
  obtain ⟨hrules, hrest⟩ := registers_addRules j h.registers call.requests
  rw [after_of_outcome?_eq_none j hcall]
  have hstatus : call.status? = none := by cases call <;> first | rfl | cases hcall
  have hverdict : verdictAfter? patience calls call = none := by
    cases call <;> first | rfl | cases hcall
  refine ⟨?_, ?_, ?_, ?_⟩
  · rwa [JudgeCall.grants_concat]
  · rw [hrest]
    exact h.patience_eq
  · rw [hrest, JudgeCall.silenceAfter_concat, hstatus]
    exact h.silence_eq
  · rw [hrest, JudgeCall.tallyAfter_concat, hverdict, hcall]
    exact h.tally_eq

theorem consume (path : CommandPath) (outcome : Outcome) :
    (j.consume path outcome).value.Follows patience (calls ++ [.consume path outcome]) := by
  refine ⟨?_, ?_, ?_, ?_⟩
  · rw [rules_consume, JudgeCall.grants_concat, JudgeCall.requests, JudgeCall.granted,
      List.append_nil]
    exact h.registers
  · rw [patience_consume]
    exact h.patience_eq
  · rw [JudgeCall.silenceAfter_concat, ← h.silence_eq]
    cases outcome with
    | refined status code => rfl
    | plain status => exact silence_consume j path status
  · rw [JudgeCall.tallyAfter_concat, ← h.tally_eq]
    cases outcome with
    | refined status code => rfl
    | plain status =>
      rw [h.current_consume path status, tally_consume]
      simp only [Option.some.injEq]
      rfl

theorem after (call : JudgeCall) : (j.after call).Follows patience (calls ++ [call]) := by
  cases houtcome : call.outcome? with
  | none => exact h.register houtcome
  | some outcome =>
    cases call with
    | consume path outcome => exact h.consume path outcome
    | addRule | addScope => cases houtcome

end Judge.Follows

namespace Judge

theorem follows_of (patience : Nat) (calls : List JudgeCall) :
    (of patience calls).Follows patience calls := by
  induction calls using List.reverseRecOn with
  | nil => exact follows_new patience
  | append_singleton calls call ih =>
    rw [of_concat]
    exact ih.after call

theorem verdicts_of_append (patience : Nat) (calls : List JudgeCall) {rest : List JudgeCall}
    (hrest : ∀ c ∈ rest, c.outcome? = none) :
    (of patience (calls ++ rest)).current = (of patience calls).current ∧
      (of patience (calls ++ rest)).last = (of patience calls).last := by
  induction rest using List.reverseRecOn with
  | nil =>
    rw [List.append_nil]
    exact ⟨rfl, rfl⟩
  | append_singleton rest call ih =>
    obtain ⟨hcurrent, hlast⟩ := ih fun c hc => hrest c (List.mem_append_left _ hc)
    have hcall : call.outcome? = none := hrest call (by simp)
    have hsame := (registers_addRules _ (follows_of patience (calls ++ rest)).registers
      call.requests).2
    rw [← List.append_assoc, of_concat, after_of_outcome?_eq_none _ hcall, hsame]
    exact ⟨hcurrent, hlast⟩

/-- The latest ruling outlasts all calls that bring no status to hold against a rule. -/
theorem ruling_of_append (patience : Nat) (calls : List JudgeCall) {rest : List JudgeCall}
    (hrest : ∀ c ∈ rest, c.isRuled = false) :
    (of patience (calls ++ rest)).ruling = (of patience calls).ruling := by
  induction rest using List.reverseRecOn with
  | nil => rw [List.append_nil]
  | append_singleton rest call ih =>
    have hruling := ih fun c hc => hrest c (List.mem_append_left _ hc)
    have hcall : call.isRuled = false := hrest call (by simp)
    rw [← List.append_assoc, of_concat, ← hruling]
    cases houtcome : call.outcome? with
    | none =>
      have hsame := (registers_addRules _ (follows_of patience (calls ++ rest)).registers
        call.requests).2
      rw [after_of_outcome?_eq_none _ houtcome, hsame]
    | some outcome =>
      cases call with
      | consume path outcome => exact Judge.ruling_consume _ path hcall
      | addRule | addScope => cases houtcome

theorem answer_of (patience : Nat) (calls : List JudgeCall) (path : CommandPath) {status : Status}
    (hstatus : status ≠ .timeout) :
    let verdict := ((of patience calls).consume path (.plain status)).value.current
    let isAccepted := ∃ extras, (path, extras) ∈ grants calls ∧ status ∈ path.usual ++ extras
    (verdict = .ok ↔ isAccepted) ∧ (verdict = .unexpected ↔ ¬ isAccepted) := by
  intro verdict isAccepted
  have hfollows := follows_of patience calls
  have haccepts : (ruleAfter calls path).accepts status = true ↔ isAccepted := by
    rw [← hfollows.ruleFor_eq path]
    exact hfollows.registers.accepts_iff status
  have hverdict : verdict = (rulingAfter calls path status).verdict := by
    have hcurrent := hfollows.current_consume path status
    rw [verdictAfter?, if_neg hstatus] at hcurrent
    exact (Option.some.inj hcurrent).symm
  rw [hverdict, rulingAfter, ← haccepts]
  cases (ruleAfter calls path).accepts status <;> simp

theorem timeout_of (patience : Nat) (calls : List JudgeCall) (path : CommandPath) :
    let call := JudgeCall.consume path (.plain .timeout)
    ((of patience calls).consume path (.plain .timeout)).value.current =
      if max patience 1 ≤ silenceAfter (calls ++ [call]) then .unreachable else .timeout := by
  intro call
  have hcurrent := (follows_of patience calls).current_consume path .timeout
  have hsilence : silenceAfter (calls ++ [call]) = silenceAfter calls + 1 :=
    JudgeCall.silenceAfter_concat calls call
  rw [verdictAfter?, if_pos rfl] at hcurrent
  rw [hsilence]
  exact (Option.some.inj hcurrent).symm

/-- What a judge answers and keeps is determined by its calls. The first three parts give the
verdict on the next outcome: a refined one leaves the verdict in force, a timeout is held against
the patience, any other status against the rules granted so far. Then come the two latest verdicts,
the latest ruling and the tallies. -/
theorem verdict_eq_ofCalls (patience : Nat) (calls : List JudgeCall) :
    let j := of patience calls
    (∀ path status code, (j.consume path (.refined status code)).value.current = j.current) ∧
    (∀ path, (j.consume path (.plain .timeout)).value.current =
      if max patience 1 ≤ silenceAfter (calls ++ [.consume path (.plain .timeout)])
      then .unreachable else .timeout) ∧
    (∀ path status, status ≠ .timeout →
      let verdict := (j.consume path (.plain status)).value.current
      let isAccepted := ∃ extras, (path, extras) ∈ grants calls ∧ status ∈ path.usual ++ extras
      (verdict = .ok ↔ isAccepted) ∧ (verdict = .unexpected ↔ ¬ isAccepted)) ∧
    ((∀ c ∈ calls, c.outcome? = none) → j.current = .initialized ∧ j.last = .uninitialized) ∧
    (∀ past path outcome rest, calls = past ++ .consume path outcome :: rest →
      (∀ c ∈ rest, c.outcome? = none) →
      j.current = ((of patience past).consume path outcome).value.current ∧
        j.last = (of patience past).current) ∧
    ((∀ c ∈ calls, c.isRuled = false) → j.ruling = none) ∧
    (∀ past path status rest, calls = past ++ .consume path (.plain status) :: rest →
      status ≠ .timeout → (∀ c ∈ rest, c.isRuled = false) →
      j.ruling = some (rulingAfter past path status)) ∧
    j.tally = tallyAfter patience calls := by
  intro j
  have hsplit (past rest : List JudgeCall) (call : JudgeCall) :
      past ++ call :: rest = past ++ [call] ++ rest := List.append_cons past call rest
  refine ⟨fun path status code => rfl, timeout_of patience calls, ?_, ?_, ?_, ?_, ?_,
    (follows_of patience calls).tally_eq⟩
  · intro path status hstatus
    exact answer_of patience calls path hstatus
  · intro hcalls
    exact verdicts_of_append patience [] hcalls
  · intro past path outcome rest hcalls hrest
    obtain ⟨hcurrent, hlast⟩ :=
      verdicts_of_append patience (past ++ [.consume path outcome]) hrest
    rw [← hsplit, ← hcalls, of_concat] at hcurrent hlast
    exact ⟨hcurrent, hlast.trans (last_consume _ path outcome)⟩
  · intro hcalls
    exact ruling_of_append patience [] hcalls
  · intro past path status rest hcalls hstatus hrest
    have hruling := ruling_of_append patience (past ++ [.consume path (.plain status)]) hrest
    rw [← hsplit, ← hcalls, of_concat] at hruling
    exact hruling.trans ((follows_of patience past).ruling_consume hstatus)

/-- A refined status between two timeouts on different paths does not break the run. -/
theorem verdict_eq_ofCalls_run :
    let p : CommandPath := ⟨.invoke, 1, 6, 0⟩
    let q : CommandPath := ⟨.write, 1, 8, 1⟩
    let rules : List JudgeCall := [.addScope 1 6 [0, 0xFFFFFFFF] [0, 1] [], .addRule p [.timeout]]
    let calls : List JudgeCall := rules ++
      [.consume p (.plain .success), .consume q (.plain .timeout),
        .consume p (.refined .failure 2), .addRule q []]
    ((of 2 calls).consume p (.plain .timeout)).value.current = .unreachable ∧
      ((of 2 calls).consume p (.plain .invalidCommand)).value.current = .ok ∧
      ((of 2 calls).consume q (.plain .invalidCommand)).value.current = .unexpected ∧
      (of 2 calls).current = .timeout ∧ (of 2 calls).last = .timeout ∧
      (of 2 calls).ruling = some (rulingAfter rules p .success) ∧
      (of 2 calls).tally = { consumed := 3, ok := 1, timeouts := 1, refined := 1 } := by
  intro p q rules calls
  obtain ⟨-, htimeout, hanswer, -, hverdicts, -, hruling, htally⟩ := verdict_eq_ofCalls 2 calls
  have hrun : max 2 1 ≤ silenceAfter (calls ++ [.consume p (.plain .timeout)]) := by decide
  have hlatest := hverdicts (calls.take 4) p (.refined .failure 2) [.addRule q []] rfl (by decide)
  have hkept := (verdict_eq_ofCalls 2 (calls.take 4)).1 p .failure 2
  have hbefore : (of 2 (calls.take 4)).current = .timeout := by decide
  refine ⟨?_, ?_, ?_, ?_, ?_, hruling rules p .success _ rfl (by decide) (by decide),
    htally.trans (by decide)⟩
  · rw [htimeout p, if_pos hrun]
  · have hgranted :
        ∃ extras, (p, extras) ∈ grants calls ∧ Status.invalidCommand ∈ p.usual ++ extras :=
      ⟨[], by decide, by decide⟩
    have hok := (hanswer p .invalidCommand (by decide)).1
    exact hok.mpr hgranted
  · have hunexpected := (hanswer q .invalidCommand (by decide)).2
    refine hunexpected.mpr ?_
    rintro ⟨extras, hmem, htakes⟩
    have hextras : extras = [] := by
      have hgrants : grants calls =
          [(p, []), (⟨.write, 1, 6, 0⟩, []), (⟨.write, 1, 6, 1⟩, []), (q, [])] := by decide
      simpa [hgrants, p, q] using hmem
    rw [hextras] at htakes
    exact absurd htakes (by decide)
  · rw [hlatest.1, hkept, hbefore]
  · rw [hlatest.2, hbefore]

end Judge

end DeviceTrial
