import Mathlib.Data.Finset.Card
import DeviceTrial.Proofs.Judge.Verdicts

namespace DeviceTrial

namespace JudgeCall

def tried (past : List RuleRequest) : List RuleRequest → List RuleRequest
  | [] => []
  | r :: rs =>
    if r.1.isWildcard = false ∧ r.1 ∈ past.map (·.1) then [r] else r :: tried (past ++ [r]) rs

/-- All registrations that are tried in the course of some calls, granted or not. -/
def tries (calls : List JudgeCall) : List RuleRequest :=
  calls.foldl (fun past call => past ++ tried past call.requests) []

def firstFor (past : List RuleRequest) (path : CommandPath) : Option RuleRequest :=
  past.find? fun r => r.1 = path

theorem tries_concat (calls : List JudgeCall) (call : JudgeCall) :
    tries (calls ++ [call]) = tries calls ++ tried (tries calls) call.requests :=
  List.foldl_append ..

theorem grants_prefix (calls later : List JudgeCall) : grants calls <+: grants (calls ++ later) := by
  induction later using List.reverseRecOn with
  | nil => rw [List.append_nil]
  | append_singleton later call ih =>
    rw [← List.append_assoc, grants_concat]
    exact ih.trans (List.prefix_append ..)

theorem exists_firstFor_iff {past : List RuleRequest} {path : CommandPath} :
    (∃ r, firstFor past path = some r) ↔ path ∈ past.map (·.1) := by
  rw [← Option.isSome_iff_exists]
  simp [firstFor]

theorem path_of_firstFor {past : List RuleRequest} {path : CommandPath} {r : RuleRequest}
    (h : firstFor past path = some r) : r.1 = path := by
  simpa using List.find?_some h

theorem firstFor_concat (past : List RuleRequest) (r : RuleRequest) (path : CommandPath) :
    firstFor (past ++ [r]) path = (firstFor past path).or (if r.1 = path then some r else none) := by
  rw [firstFor, List.find?_append, List.find?_singleton]
  simp only [decide_eq_true_eq]
  rfl

/-- Those granted are the first of their paths among those tried, wildcards left out. -/
def AreFirst (granted tried : List RuleRequest) : Prop :=
  ∀ r, r ∈ granted ↔ r.1.isWildcard = false ∧ firstFor tried r.1 = some r

namespace AreFirst

variable {given past : List RuleRequest} (h : AreFirst given past)
include h

theorem mem_map_iff {path : CommandPath} (hpath : path.isWildcard = false) :
    path ∈ given.map (·.1) ↔ path ∈ past.map (·.1) := by
  constructor
  · intro hmem
    obtain ⟨r, hr, rfl⟩ := List.mem_map.mp hmem
    exact exists_firstFor_iff.mp ⟨r, ((h r).mp hr).2⟩
  · intro hmem
    obtain ⟨r, hr⟩ := exists_firstFor_iff.mpr hmem
    obtain rfl := path_of_firstFor hr
    exact List.mem_map.mpr ⟨r, (h r).mpr ⟨hpath, hr⟩, rfl⟩

theorem skip {r : RuleRequest} (hr : r.1.isWildcard = true ∨ r.1 ∈ past.map (·.1)) :
    AreFirst given (past ++ [r]) := by
  intro q
  rw [h q, firstFor_concat]
  refine and_congr_right fun hq => ?_
  by_cases hsame : r.1 = q.1
  · have hwild : ¬ r.1.isWildcard = true := by rw [hsame, hq]; decide
    obtain ⟨first, hfirst⟩ := exists_firstFor_iff.mpr (hr.resolve_left hwild)
    rw [← hsame, hfirst, Option.some_or]
  · rw [if_neg hsame, Option.or_none]

theorem add {r : RuleRequest} (hwild : r.1.isWildcard = false) (hnew : r.1 ∉ past.map (·.1)) :
    AreFirst (given ++ [r]) (past ++ [r]) := by
  intro q
  have hnone : firstFor past r.1 = none := by
    by_contra hsome
    exact hnew (exists_firstFor_iff.mp (Option.ne_none_iff_exists'.mp hsome))
  rw [List.mem_append, List.mem_singleton, h q, firstFor_concat]
  by_cases hsame : r.1 = q.1
  · rw [← hsame, hnone, if_pos rfl, Option.none_or, Option.some.injEq]
    simp [hwild, eq_comm]
  · have hne : q ≠ r := fun hq => hsame (by rw [hq])
    rw [if_neg hsame, Option.or_none]
    simp [hne]

theorem granted_tried (requests : List RuleRequest) :
    AreFirst (given ++ granted given requests) (past ++ tried past requests) := by
  induction requests generalizing given past with
  | nil => simpa [granted, tried] using h
  | cons r rs ih =>
    by_cases hwild : r.1.isWildcard = true
    · have hrest := ih (h.skip (.inl hwild))
      rw [granted, if_pos hwild, tried, if_neg (by simp [hwild])]
      rwa [List.append_assoc] at hrest
    · have hplain : r.1.isWildcard = false := Bool.eq_false_iff.mpr hwild
      have hmem := h.mem_map_iff hplain
      by_cases hold : r.1 ∈ past.map (·.1)
      · rw [granted, if_neg hwild, if_pos (hmem.mpr hold), tried, if_pos ⟨hplain, hold⟩,
          List.append_nil]
        exact h.skip (.inr hold)
      · have hrest := ih (h.add hplain hold)
        rw [granted, if_neg hwild, if_neg fun hgiven => hold (hmem.mp hgiven), tried,
          if_neg fun hboth => hold hboth.2]
        rwa [List.append_assoc, List.append_assoc] at hrest

end AreFirst

theorem areFirst_of (calls : List JudgeCall) : AreFirst (grants calls) (tries calls) := by
  induction calls using List.reverseRecOn with
  | nil => intro r; simp [grants, tries, firstFor]
  | append_singleton calls call ih =>
    rw [grants_concat, tries_concat]
    exact ih.granted_tried call.requests

end JudgeCall

open JudgeCall (tries firstFor areFirst_of)

theorem CommandPath.isWildcard_eq_false_iff {path : CommandPath} : path.isWildcard = false ↔
    path.endpoint ≠ 0xFFFF ∧ path.cluster ≠ 0xFFFFFFFF ∧ path.id ≠ 0xFFFFFFFF := by
  simp [isWildcard, and_assoc]

namespace Judge

section

variable {j k : Judge} {path : CommandPath} {before : List RuleRequest}

/-- Requests that follow on such as go through start from what those leave behind. -/
theorem value_addRules_append (h : (j.addRules before).value = (k, none))
    (rest : List RuleRequest) :
    (j.addRules (before ++ rest)).value = (k.addRules rest).value := by
  induction before generalizing j with
  | nil =>
    cases h
    rfl
  | cons r before ih =>
    rw [value_addRules_cons] at h
    rw [List.cons_append, value_addRules_cons]
    cases hr : (j.addRule r.1 r.2).value with
    | ok next =>
      rw [hr] at h
      exact ih h
    | error fault =>
      rw [hr] at h
      cases h

theorem contains_addRules (h : (j.addRules before).value = (k, none))
    (hwild : path.isWildcard = false)
    (hpath : j.rules.contains path = true ∨ path ∈ before.map (·.1)) :
    k.rules.contains path = true := by
  induction before generalizing j with
  | nil =>
    cases h
    exact hpath.resolve_right (List.not_mem_nil)
  | cons r before ih =>
    rw [value_addRules_cons] at h
    -- nothing is refused on the way, so a path of `before` was registered in its turn
    by_cases hr : r.1.isWildcard = true
    · rw [value_addRule_of_wildcard j hr] at h
      have hne : path ≠ r.1 := fun heq => by simp [← heq, hwild] at hr
      exact ih h (by simpa [hne] using hpath)
    · by_cases hold : j.rules.contains r.1 = true
      · rw [value_addRule_of_contains j hr hold] at h
        cases h
      · rw [value_addRule_of_new j hr hold] at h
        refine ih h ?_
        rw [SortedMap.contains_insert]
        simp only [List.map_cons, List.mem_cons] at hpath
        tauto

/-- The first request for a path that has a rule is refused, and with it those that follow. -/
theorem value_addRules_of_contains (h : (j.addRules before).value = (k, none))
    (hwild : path.isWildcard = false) (hold : k.rules.contains path = true)
    (extras : List Status) (rest : List RuleRequest) :
    (j.addRules (before ++ (path, extras) :: rest)).value = (k, some ⟨path⟩) := by
  have hplain : ¬ path.isWildcard = true := Bool.eq_false_iff.mp hwild
  rw [value_addRules_append h, value_addRules_cons, value_addRule_of_contains k hplain hold]

end

theorem get?_rules_of (patience : Nat) (calls : List JudgeCall) {path : CommandPath} {r : Rule} :
    (of patience calls).rules.get? path = some r ↔
      path.isWildcard = false ∧
        ∃ extras, firstFor (tries calls) path = some (path, extras) ∧ r = .new path extras := by
  rw [(follows_of patience calls).registers path r]
  simp only [areFirst_of calls _]
  constructor
  · rintro ⟨extras, ⟨hwild, hfirst⟩, rfl⟩
    exact ⟨hwild, extras, hfirst, rfl⟩
  · rintro ⟨hwild, extras, hfirst, rfl⟩
    exact ⟨extras, ⟨hwild, hfirst⟩, rfl⟩

theorem contains_rules_of (patience : Nat) (calls : List JudgeCall) {path : CommandPath} :
    (of patience calls).rules.contains path = true ↔
      path.isWildcard = false ∧ path ∈ (tries calls).map (·.1) := by
  rw [SortedMap.contains, Option.isSome_iff_exists, ← JudgeCall.exists_firstFor_iff]
  simp only [get?_rules_of]
  constructor
  · rintro ⟨r, hwild, extras, hfirst, rfl⟩
    exact ⟨hwild, _, hfirst⟩
  · rintro ⟨hwild, r, hfirst⟩
    obtain rfl := JudgeCall.path_of_firstFor hfirst
    exact ⟨_, hwild, r.2, hfirst, rfl⟩

theorem get?_rules_of_append {patience : Nat} {calls : List JudgeCall} {path : CommandPath}
    {r : Rule} (h : (of patience calls).rules.get? path = some r) (later : List JudgeCall) :
    (of patience (calls ++ later)).rules.get? path = some r := by
  obtain ⟨extras, hgranted, hr⟩ := ((follows_of patience calls).registers path r).mp h
  have hkept := (JudgeCall.grants_prefix calls later).subset hgranted
  exact ((follows_of patience (calls ++ later)).registers path r).mpr ⟨extras, hkept, hr⟩

theorem size_rules_of (patience : Nat) (calls : List JudgeCall) :
    (of patience calls).rules.size =
      (((tries calls).map (·.1)).filter (·.isWildcard = false)).toFinset.card := by
  have hkeys : (of patience calls).rules.keys.toFinset =
      (((tries calls).map (·.1)).filter (·.isWildcard = false)).toFinset := by
    ext path
    rw [List.mem_toFinset, List.mem_toFinset, SortedMap.mem_keys, contains_rules_of,
      List.mem_filter, decide_eq_true_eq, and_comm]
  rw [← hkeys, List.toFinset_card_of_nodup (SortedMap.nodup_keys _), SortedMap.keys,
    List.length_map, SortedMap.size]

/-- The rules of a judge are those of the first registrations that were tried for their paths. No
path with a rule holds a reserved id, and the rule carries its path and accepts the statuses that are
usual for its kind and the extra ones of that registration. It is there for good. A path that was
tried before is refused, by itself as well as in the course of a bulk registration, and nothing of
that call is done from there on. -/
theorem rules_permanent (patience : Nat) (calls : List JudgeCall) :
    let j := of patience calls
    let paths := (tries calls).map (·.1)
    (∀ path, j.rules.contains path = true ↔ path ∈ paths ∧
      path.endpoint ≠ 0xFFFF ∧ path.cluster ≠ 0xFFFFFFFF ∧ path.id ≠ 0xFFFFFFFF) ∧
    (∀ path r, j.rules.get? path = some r →
      r.path = path ∧
      (∃ extras, firstFor (tries calls) path = some (path, extras) ∧
        ∀ status, r.accepts status = true ↔
          status ∈ (if path.isCommand then
            [.success, .failure, .invalidCommand, .constraintError] else [.success, .failure]) ∨
          status ∈ extras) ∧
      ∀ later, (of patience (calls ++ later)).rules.get? path = some r) ∧
    (∀ path extras, path.isWildcard = false → path ∈ paths →
      (j.addRule path extras).value = .error ⟨path⟩ ∧ j.after (.addRule path extras) = j) ∧
    (∀ endpoint cluster commands attributes extras before path more rest k,
      (JudgeCall.addScope endpoint cluster commands attributes extras).requests =
        before ++ (path, more) :: rest →
      (j.addRules before).value = (k, none) →
      path.isWildcard = false → path ∈ paths ++ before.map (·.1) →
      (j.addScope endpoint cluster commands attributes extras).value = (k, .error ⟨path⟩)) ∧
    j.rules.size = (paths.filter (·.isWildcard = false)).toFinset.card := by
  intro j paths
  refine ⟨fun path => ?_, fun path r hr => ⟨?_, ?_, get?_rules_of_append hr⟩,
    fun path extras hwild hmem => ?_, ?_, size_rules_of patience calls⟩
  · rw [contains_rules_of, CommandPath.isWildcard_eq_false_iff, and_comm]
  · obtain ⟨-, extras, -, rfl⟩ := (get?_rules_of patience calls).mp hr
    rfl
  · obtain ⟨-, extras, hfirst, rfl⟩ := (get?_rules_of patience calls).mp hr
    refine ⟨extras, hfirst, fun status => ?_⟩
    rw [Rule.accepts_new, List.mem_append]
    rfl
  · have hold : j.rules.contains path = true := (contains_rules_of patience calls).mpr ⟨hwild, hmem⟩
    have hrefused := value_addRule_of_contains j (Bool.eq_false_iff.mp hwild) hold extras
    refine ⟨hrefused, ?_⟩
    rw [after, hrefused]
  · intro endpoint cluster commands attributes extras before path more rest k hrequests hbefore
      hwild hmem
    have hold : k.rules.contains path = true := by
      refine contains_addRules hbefore hwild ?_
      rw [contains_rules_of]
      exact (List.mem_append.mp hmem).imp_left fun hpast => ⟨hwild, hpast⟩
    have hrefused := value_addRules_of_contains hbefore hwild hold more rest
    rw [← hrequests, JudgeCall.requests] at hrefused
    simp only [addScope, Told.value_bind, hrefused]
    rfl

/-- A bulk registration that passes over a wildcard and is refused at an attribute. -/
theorem rules_permanent_bulk :
    let p : CommandPath := ⟨.invoke, 1, 6, 0⟩
    let q : CommandPath := ⟨.write, 1, 6, 0⟩
    let bulk : JudgeCall := .addScope 1 6 [0, 0xFFFFFFFF] [1, 0, 2] [.unsupportedRead]
    let calls : List JudgeCall := [.addRule q [.timeout], bulk, .consume p (.plain .timeout)]
    (∃ r, (of 2 calls).rules.get? q = some r ∧ r.accepts .timeout = true ∧
        r.accepts .unsupportedRead = false ∧
        (of 2 (calls ++ [.addRule q [.unsupportedRead]])).rules.get? q = some r) ∧
      (of 2 calls).rules.contains ⟨.write, 1, 6, 2⟩ = false ∧ (of 2 calls).rules.size = 3 ∧
      ((of 2 calls).addRule q [.success]).value = .error ⟨q⟩ ∧
      ((of 2 [.addRule q [.timeout]]).addScope 1 6 [0, 0xFFFFFFFF] [1, 0, 2]
        [.unsupportedRead]).value.2 = .error ⟨q⟩ := by
  intro p q bulk calls
  obtain ⟨htable, hrule, hrefused, -, hsize⟩ := rules_permanent 2 calls
  obtain ⟨-, -, -, hbulk, -⟩ := rules_permanent 2 [.addRule q [.timeout]]
  obtain ⟨r, hr⟩ := Option.isSome_iff_exists.mp ((htable q).mpr ⟨by decide, by decide⟩)
  obtain ⟨-, ⟨extras, hfirst, haccepts⟩, hkept⟩ := hrule q r hr
  have hextras : firstFor (tries calls) q = some (q, [.timeout]) := by decide
  obtain rfl : extras = [.timeout] := by
    rw [hextras] at hfirst
    cases hfirst
    rfl
  refine ⟨⟨r, hr, (haccepts _).mpr (by decide), ?_, hkept _⟩, ?_, hsize.trans (by decide),
    (hrefused q _ (by decide) (by decide)).1, ?_⟩
  · exact Bool.eq_false_iff.mpr fun h => absurd ((haccepts _).mp h) (by decide)
  · exact Bool.eq_false_iff.mpr fun h => absurd ((htable _).mp h) (by decide)
  · have hrequests : bulk.requests =
        [(p, []), (⟨.invoke, 1, 6, 0xFFFFFFFF⟩, []), (⟨.write, 1, 6, 1⟩, [.unsupportedRead])] ++
          (q, [.unsupportedRead]) :: [(⟨.write, 1, 6, 2⟩, [.unsupportedRead])] := by
      decide
    generalize hreply : ((of 2 [.addRule q [.timeout]]).addRules [(p, []),
        (⟨.invoke, 1, 6, 0xFFFFFFFF⟩, []), (⟨.write, 1, 6, 1⟩, [.unsupportedRead])]).value = reply
    have hthrough : reply.2 = none := by
      rw [← hreply]
      decide
    obtain ⟨k, fault⟩ := reply
    obtain rfl : fault = none := hthrough
    rw [hbulk 1 6 _ _ _ _ q _ _ k hrequests hreply (by decide) (by decide)]

end Judge

end DeviceTrial
