import DeviceTrial.Judge
import DeviceTrial.Proofs.SortedMap

namespace DeviceTrial

/-- A rule that is asked for: its path, and what it accepts besides the usual statuses. -/
abbrev RuleRequest := CommandPath × List Status

inductive JudgeCall where
  | addRule (path : CommandPath) (extras : List Status)
  | addScope (endpoint : EndpointId) (cluster : ClusterId) (commands : List CommandId)
      (attributes : List AttributeId) (extras : List Status)
  | consume (path : CommandPath) (outcome : Outcome)

namespace JudgeCall

def requests : JudgeCall → List RuleRequest
  | addRule path extras => [(path, extras)]
  | addScope endpoint cluster commands attributes extras =>
    commands.map (fun id => (⟨.invoke, endpoint, cluster, id⟩, [])) ++
      attributes.map (fun id => (⟨.write, endpoint, cluster, id⟩, extras))
  | consume .. => []

def outcome? : JudgeCall → Option Outcome
  | consume _ outcome => some outcome
  | _ => none

/-- What is granted of some requests after others have been. -/
def granted (past : List RuleRequest) : List RuleRequest → List RuleRequest
  | [] => []
  | r :: rs =>
    if r.1.isWildcard then granted past rs
    else if r.1 ∈ past.map (·.1) then []
    else r :: granted (past ++ [r]) rs

/-- What is granted in the course of some calls. -/
def grants (calls : List JudgeCall) : List RuleRequest :=
  calls.foldl (fun past call => past ++ granted past call.requests) []

theorem grants_concat (calls : List JudgeCall) (call : JudgeCall) :
    grants (calls ++ [call]) = grants calls ++ granted (grants calls) call.requests :=
  List.foldl_append ..

end JudgeCall

open JudgeCall (granted grants)

theorem Rule.accepts_new (path : CommandPath) (extras : List Status) (status : Status) :
    (Rule.new path extras).accepts status = true ↔ status ∈ path.usual ++ extras :=
  SortedSet.contains_ofList

theorem Rule.accepts_missing (status : Status) : Rule.missing.accepts status = false := rfl

/-- The table holds the rules that were granted. -/
def Registers (rules : SortedMap CommandPath Rule) (past : List RuleRequest) : Prop :=
  ∀ path r, rules.get? path = some r ↔ ∃ extras, (path, extras) ∈ past ∧ r = .new path extras

namespace Registers

variable {rules : SortedMap CommandPath Rule} {past : List RuleRequest} {path : CommandPath}

theorem empty : Registers .empty [] := by
  intro path r
  simp

theorem contains_iff (h : Registers rules past) :
    rules.contains path = true ↔ path ∈ past.map (·.1) := by
  rw [SortedMap.contains, Option.isSome_iff_exists]
  constructor
  · rintro ⟨r, hr⟩
    obtain ⟨extras, hmem, -⟩ := (h path r).mp hr
    exact List.mem_map.mpr ⟨_, hmem, rfl⟩
  · intro hmem
    obtain ⟨⟨_, extras⟩, hentry, rfl⟩ := List.mem_map.mp hmem
    exact ⟨_, (h _ _).mpr ⟨extras, hentry, rfl⟩⟩

theorem insert (h : Registers rules past) (hnew : path ∉ past.map (·.1)) (extras : List Status) :
    Registers (rules.insert path (.new path extras)) (past ++ [(path, extras)]) := by
  intro other r
  by_cases hother : other = path
  · subst hother
    -- the path had no rule, so the new one is the only one for it
    have hfresh (found : List Status) : (other, found) ∉ past := fun hmem =>
      hnew (List.mem_map.mpr ⟨_, hmem, rfl⟩)
    simp [SortedMap.get?_insert_self, hfresh, eq_comm]
  · rw [SortedMap.get?_insert_of_ne _ _ hother, h]
    simp [hother]

theorem accepts_iff (h : Registers rules past) (status : Status) :
    ((rules.get? path).getD .missing).accepts status = true ↔
      ∃ extras, (path, extras) ∈ past ∧ status ∈ path.usual ++ extras := by
  cases hget : rules.get? path with
  | none =>
    rw [Option.getD_none, Rule.accepts_missing]
    refine ⟨fun hfalse => (nomatch hfalse), ?_⟩
    rintro ⟨extras, hmem, -⟩
    have hsome := (h path _).mpr ⟨extras, hmem, rfl⟩
    rw [hget] at hsome
    cases hsome
  | some r =>
    rw [Option.getD_some]
    constructor
    · intro haccepts
      obtain ⟨extras, hmem, rfl⟩ := (h path r).mp hget
      exact ⟨extras, hmem, (Rule.accepts_new path extras status).mp haccepts⟩
    · rintro ⟨extras, hmem, htakes⟩
      have hsame := (h path _).mpr ⟨extras, hmem, rfl⟩
      rw [hget] at hsame
      cases hsame
      exact (Rule.accepts_new path extras status).mpr htakes

end Registers

namespace Judge

variable (j : Judge)

theorem value_addRule_of_wildcard {path : CommandPath} (h : path.isWildcard = true)
    (extras : List Status) : (j.addRule path extras).value = .ok j := by
  rw [addRule, if_pos h]
  rfl

theorem value_addRule_of_contains {path : CommandPath} (h : ¬ path.isWildcard = true)
    (hold : j.rules.contains path = true) (extras : List Status) :
    (j.addRule path extras).value = .error ⟨path⟩ := by
  rw [addRule, if_neg h, if_pos hold]
  rfl

theorem value_addRule_of_new {path : CommandPath} (h : ¬ path.isWildcard = true)
    (hnew : ¬ j.rules.contains path = true) (extras : List Status) :
    (j.addRule path extras).value =
      .ok { j with rules := j.rules.insert path (.new path extras) } := by
  rw [addRule, if_neg h, if_neg hnew]
  rfl

theorem value_addRules_cons (path : CommandPath) (extras : List Status)
    (rest : List RuleRequest) :
    (j.addRules ((path, extras) :: rest)).value =
      match (j.addRule path extras).value with
      | .ok next => (next.addRules rest).value
      | .error fault => (j, some fault) := by
  rw [addRules, Told.value_bind]
  cases (j.addRule path extras).value <;> rfl

theorem registers_addRules {past : List RuleRequest} (h : Registers j.rules past)
    (requests : List RuleRequest) :
    let after := (j.addRules requests).value.1
    Registers after.rules (past ++ granted past requests) ∧
      after = { j with rules := after.rules } := by
  induction requests generalizing j past with
  | nil =>
    rw [granted, List.append_nil]
    exact ⟨h, rfl⟩
  | cons request rest ih =>
    obtain ⟨path, extras⟩ := request
    rw [value_addRules_cons]
    by_cases hwild : path.isWildcard = true
    · rw [value_addRule_of_wildcard j hwild, granted, if_pos hwild]
      exact ih j h
    · by_cases hold : j.rules.contains path = true
      -- the first path that has a rule ends the registration
      · have hmem : path ∈ past.map (·.1) := h.contains_iff.mp hold
        rw [value_addRule_of_contains j hwild hold, granted, if_neg hwild, if_pos hmem]
        exact ⟨by simpa using h, rfl⟩
      · have hmem : path ∉ past.map (·.1) := fun hmem => hold (h.contains_iff.mpr hmem)
        rw [value_addRule_of_new j hwild hold, granted, if_neg hwild, if_neg hmem]
        obtain ⟨hrules, hrest⟩ := ih { j with rules := j.rules.insert path (.new path extras) }
          (h.insert hmem extras)
        refine ⟨?_, hrest⟩
        rwa [List.append_assoc] at hrules

/-- The judge after a call. -/
def after : JudgeCall → Judge
  | .addRule path extras => match (j.addRule path extras).value with
    | .ok next => next
    | .error _ => j
  | .addScope endpoint cluster commands attributes extras =>
    (j.addScope endpoint cluster commands attributes extras).value.1
  | .consume path outcome => (j.consume path outcome).value

def of (patience : Nat) (calls : List JudgeCall) : Judge := calls.foldl after (.new patience)

theorem of_concat (patience : Nat) (calls : List JudgeCall) (call : JudgeCall) :
    of patience (calls ++ [call]) = (of patience calls).after call :=
  List.foldl_append ..

theorem after_of_outcome?_eq_none {call : JudgeCall} (h : call.outcome? = none) :
    j.after call = (j.addRules call.requests).value.1 := by
  cases call with
  | addRule path extras =>
    rw [after, JudgeCall.requests, value_addRules_cons]
    cases (j.addRule path extras).value <;> rfl
  | addScope endpoint cluster commands attributes extras =>
    rw [after, addScope, Told.value_bind, JudgeCall.requests]
    generalize (j.addRules _).value = registered
    obtain ⟨next, fault⟩ := registered
    cases fault <;> rfl
  | consume path outcome => cases h

theorem rules_consume (path : CommandPath) (outcome : Outcome) :
    (j.consume path outcome).value.rules = j.rules := by
  unfold consume consumeTimeout consumeAnswer
  cases outcome with
  | refined status code => rfl
  | plain status =>
    by_cases hstatus : status = .timeout
    · simp only [if_pos hstatus, Told.value_pure]
      split <;> rfl
    · simp only [if_neg hstatus, Told.value_bind, Told.value_pure]
      split <;> rfl

end Judge

end DeviceTrial
