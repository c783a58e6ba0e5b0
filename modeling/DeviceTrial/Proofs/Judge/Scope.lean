import Mathlib.Data.List.Nodup
import DeviceTrial.Proofs.Judge.Rules

namespace DeviceTrial

namespace JudgeCall

/-- The paths that are asked for, wildcards left out. -/
def plainPaths (requests : List RuleRequest) : List CommandPath :=
  (requests.map (·.1)).filter fun path => !path.isWildcard

variable {path : CommandPath} {extras : List Status} {requests : List RuleRequest}

theorem plainPaths_cons_of_wildcard (h : path.isWildcard = true) :
    plainPaths ((path, extras) :: requests) = plainPaths requests := by
  simp [plainPaths, h]

theorem plainPaths_cons_of_plain (h : path.isWildcard = false) :
    plainPaths ((path, extras) :: requests) = path :: plainPaths requests := by
  simp [plainPaths, h]

theorem mem_plainPaths : path ∈ plainPaths requests ↔
    path.isWildcard = false ∧ ∃ extras, (path, extras) ∈ requests := by
  simp [plainPaths, and_comm]

end JudgeCall

open JudgeCall (plainPaths plainPaths_cons_of_wildcard plainPaths_cons_of_plain mem_plainPaths)

namespace Judge

variable {j k l : Judge} {path : CommandPath} {extras : List Status} {requests : List RuleRequest}

/-! ## One registration -/

theorem value_addRule_eq_ok_iff : (j.addRule path extras).value = .ok k ↔
    path.isWildcard = true ∧ k = j ∨
      path.isWildcard = false ∧ j.rules.contains path = false ∧
        k = { j with rules := j.rules.insert path (.new path extras) } := by
  by_cases hwild : path.isWildcard = true
  · rw [value_addRule_of_wildcard j hwild, Except.ok.injEq, eq_comm]
    simp [hwild]
  · by_cases hold : j.rules.contains path = true
    · rw [value_addRule_of_contains j hwild hold]
      simp [hwild, hold]
    · rw [value_addRule_of_new j hwild hold, Except.ok.injEq, eq_comm]
      simp [hwild, hold]

theorem value_addRule_eq_error_iff {fault : DuplicateRule} :
    (j.addRule path extras).value = .error fault ↔
      path.isWildcard = false ∧ j.rules.contains path = true ∧ fault = ⟨path⟩ := by
  by_cases hwild : path.isWildcard = true
  · rw [value_addRule_of_wildcard j hwild]
    simp [hwild]
  · by_cases hold : j.rules.contains path = true
    · rw [value_addRule_of_contains j hwild hold]
      simp [hwild, hold, eq_comm]
    · rw [value_addRule_of_new j hwild hold]
      simp [hold]

/-! ## One after the other -/

/-- Single registrations that go through, one after the other. -/
inductive Registered : Judge → List RuleRequest → Judge → Prop where
  | done (j : Judge) : Registered j [] j
  | next {j k l : Judge} {path : CommandPath} {extras : List Status} {rest : List RuleRequest}
    (first : (j.addRule path extras).value = .ok k) (others : Registered k rest l) :
    Registered j ((path, extras) :: rest) l

theorem addRules_eq_none_iff :
    (j.addRules requests).value = (k, none) ↔ Registered j requests k := by
  constructor
  · intro h
    induction requests generalizing j with
    | nil =>
      cases h
      exact .done _
    | cons r rest ih =>
      rw [value_addRules_cons] at h
      cases hfirst : (j.addRule r.1 r.2).value with
      | ok next =>
        rw [hfirst] at h
        exact .next hfirst (ih h)
      | error fault =>
        rw [hfirst] at h
        cases h
  · intro h
    induction h with
    | done => rfl
    | next first _ ih =>
      rw [value_addRules_cons, first]
      exact ih

theorem addRules_eq_some_iff {fault : DuplicateRule} :
    (j.addRules requests).value = (k, some fault) ↔
      ∃ before r rest, requests = before ++ r :: rest ∧ Registered j before k ∧
        (k.addRule r.1 r.2).value = .error fault := by
  constructor
  -- the last one before the failure is where the list splits
  · intro h
    induction requests generalizing j with
    | nil => cases h
    | cons r rest ih =>
      rw [value_addRules_cons] at h
      cases hfirst : (j.addRule r.1 r.2).value with
      | ok next =>
        rw [hfirst] at h
        obtain ⟨before, r', rest', rfl, hbefore, hrefused⟩ := ih h
        exact ⟨r :: before, r', rest', rfl, .next hfirst hbefore, hrefused⟩
      | error fault' =>
        rw [hfirst] at h
        cases h
        exact ⟨[], r, rest, rfl, .done _, hfirst⟩
  · rintro ⟨before, r, rest, rfl, hbefore, hrefused⟩
    induction hbefore with
    | done =>
      rw [List.nil_append, value_addRules_cons, hrefused]
    | next first _ ih =>
      rw [List.cons_append, value_addRules_cons, first]
      exact ih hrefused

/-! ## What goes through -/

/-- No path that is asked for has a rule already or is asked for twice. -/
structure IsClear (j : Judge) (requests : List RuleRequest) : Prop where
  once : (plainPaths requests).Nodup
  fresh : ∀ path ∈ plainPaths requests, j.rules.contains path = false

theorem IsClear.registered (h : j.IsClear requests) : ∃ k, Registered j requests k := by
  induction requests generalizing j with
  | nil => exact ⟨j, .done j⟩
  | cons r rest ih =>
    obtain ⟨path, extras⟩ := r
    obtain ⟨honce, hfresh⟩ := h
    by_cases hwild : path.isWildcard = true
    · rw [plainPaths_cons_of_wildcard hwild] at honce hfresh
      obtain ⟨k, hk⟩ := ih ⟨honce, hfresh⟩
      exact ⟨k, .next (value_addRule_eq_ok_iff.mpr (.inl ⟨hwild, rfl⟩)) hk⟩
    · have hplain : path.isWildcard = false := Bool.eq_false_iff.mpr hwild
      rw [plainPaths_cons_of_plain hplain] at honce hfresh
      obtain ⟨hpath, honce⟩ := List.nodup_cons.mp honce
      obtain ⟨hnew, hfresh⟩ := List.forall_mem_cons.mp hfresh
      -- the path itself is the only one that is no longer new, and it does not come again
      have hrest : IsClear { j with rules := j.rules.insert path (.new path extras) } rest := by
        refine ⟨honce, fun other hother => ?_⟩
        have hne : other ≠ path := fun heq => hpath (heq ▸ hother)
        rw [SortedMap.contains, SortedMap.get?_insert_of_ne _ _ hne]
        exact hfresh other hother
      obtain ⟨k, hk⟩ := ih hrest
      exact ⟨k, .next (value_addRule_eq_ok_iff.mpr (.inr ⟨hplain, hnew, rfl⟩)) hk⟩

/-- The second judge has the rules of the first and one for each path that was asked for, wildcards
left out. It is the same in all else. -/
structure Adds (j k : Judge) (requests : List RuleRequest) : Prop where
  added : ∀ path extras, path.isWildcard = false → (path, extras) ∈ requests →
    k.rules.get? path = some (.new path extras)
  kept : ∀ path, path ∉ plainPaths requests → k.rules.get? path = j.rules.get? path
  count : k.rules.size = j.rules.size + (plainPaths requests).length
  rest : k = { j with rules := k.rules }

theorem Adds.contains_iff (h : j.Adds k requests) :
    k.rules.contains path = true ↔ j.rules.contains path = true ∨ path ∈ plainPaths requests := by
  by_cases hpath : path ∈ plainPaths requests
  · obtain ⟨hplain, extras, hmem⟩ := mem_plainPaths.mp hpath
    simp [SortedMap.contains, h.added path extras hplain hmem, hpath]
  · simp [SortedMap.contains, h.kept path hpath, hpath]

theorem Adds.cons (hnew : j.rules.contains path = false) (hplain : path.isWildcard = false)
    (hclear : IsClear { j with rules := j.rules.insert path (.new path extras) } requests)
    (h : Adds { j with rules := j.rules.insert path (.new path extras) } k requests) :
    j.IsClear ((path, extras) :: requests) ∧ j.Adds k ((path, extras) :: requests) := by
  have hinserted (other : CommandPath) :
      (j.rules.insert path (.new path extras)).contains other = true ↔
        other = path ∨ j.rules.contains other = true := SortedMap.contains_insert ..
  -- the others found the first in the table, so they did not ask for its path
  have hpath : path ∉ plainPaths requests := by
    intro hmem
    have hfresh := hclear.fresh path hmem
    rw [(hinserted path).mpr (.inl rfl)] at hfresh
    cases hfresh
  refine ⟨⟨?_, ?_⟩, ⟨?_, ?_, ?_, ?_⟩⟩
  · rw [plainPaths_cons_of_plain hplain]
    exact List.nodup_cons.mpr ⟨hpath, hclear.once⟩
  · rw [plainPaths_cons_of_plain hplain]
    refine List.forall_mem_cons.mpr ⟨hnew, fun other hother => ?_⟩
    have hfresh := Bool.eq_false_iff.mp (hclear.fresh other hother)
    exact Bool.eq_false_iff.mpr fun hold => hfresh ((hinserted other).mpr (.inr hold))
  · intro other more hother hmem
    rcases List.mem_cons.mp hmem with heq | hmem
    · cases heq
      rw [h.kept path hpath]
      exact SortedMap.get?_insert_self ..
    · exact h.added other more hother hmem
  · intro other hother
    rw [plainPaths_cons_of_plain hplain, List.mem_cons, not_or] at hother
    rw [h.kept other hother.2]
    exact SortedMap.get?_insert_of_ne _ _ hother.1
  · rw [h.count, plainPaths_cons_of_plain hplain, List.length_cons]
    change (j.rules.insert path _).size + _ = _
    rw [SortedMap.size_insert hnew]
    omega
  · exact h.rest

theorem Registered.adds (h : Registered j requests k) :
    j.IsClear requests ∧ j.Adds k requests := by
  induction h with
  | done j => exact ⟨⟨.nil, List.forall_mem_nil _⟩, ⟨by simp, fun _ _ => rfl, rfl, rfl⟩⟩
  | next first _ ih =>
    rcases value_addRule_eq_ok_iff.mp first with ⟨hwild, rfl⟩ | ⟨hplain, hnew, rfl⟩
    · obtain ⟨⟨honce, hfresh⟩, hadds⟩ := ih
      refine ⟨⟨?_, ?_⟩, ⟨?_, ?_, ?_, hadds.rest⟩⟩
      · rwa [plainPaths_cons_of_wildcard hwild]
      · rwa [plainPaths_cons_of_wildcard hwild]
      · intro other more hother hmem
        rcases List.mem_cons.mp hmem with heq | hmem
        · cases heq
          rw [hwild] at hother
          cases hother
        · exact hadds.added other more hother hmem
      · rw [plainPaths_cons_of_wildcard hwild]
        exact hadds.kept
      · rw [plainPaths_cons_of_wildcard hwild]
        exact hadds.count
    · exact Adds.cons hnew hplain ih.1 ih.2

/-! ## A cluster at a time -/

/-- No id of a cluster is given twice in its list, and none has a rule already. Reserved ids do not
count. -/
structure IsClearScope (j : Judge) (endpoint : EndpointId) (cluster : ClusterId)
    (commands : List CommandId) (attributes : List AttributeId) : Prop where
  commandsOnce : (commands.filter (· ≠ 0xFFFFFFFF)).Nodup
  attributesOnce : (attributes.filter (· ≠ 0xFFFFFFFF)).Nodup
  commandsFresh : ∀ id ∈ commands, id ≠ 0xFFFFFFFF →
    j.rules.contains ⟨.invoke, endpoint, cluster, id⟩ = false
  attributesFresh : ∀ id ∈ attributes, id ≠ 0xFFFFFFFF →
    j.rules.contains ⟨.write, endpoint, cluster, id⟩ = false

section

variable {endpoint : EndpointId} {cluster : ClusterId}

theorem plainPaths_append (before rest : List RuleRequest) :
    plainPaths (before ++ rest) = plainPaths before ++ plainPaths rest := by
  rw [plainPaths, List.map_append, List.filter_append]
  rfl

theorem plainPaths_map (kind : CommandKind) (hendpoint : endpoint ≠ 0xFFFF)
    (hcluster : cluster ≠ 0xFFFFFFFF) (ids : List UInt32) (extras : List Status) :
    plainPaths (ids.map fun id => (⟨kind, endpoint, cluster, id⟩, extras)) =
      (ids.filter (· ≠ 0xFFFFFFFF)).map (⟨kind, endpoint, cluster, ·⟩) := by
  induction ids with
  | nil => rfl
  | cons id ids ih =>
    rw [List.map_cons]
    by_cases hid : id = 0xFFFFFFFF
    · rw [plainPaths_cons_of_wildcard (by simp [CommandPath.isWildcard, hid]), ih]
      simp [hid]
    · rw [plainPaths_cons_of_plain (by simp [CommandPath.isWildcard, hendpoint, hcluster, hid]), ih]
      simp [hid]

theorem plainPaths_map_of_wildcard (kind : CommandKind)
    (h : endpoint = 0xFFFF ∨ cluster = 0xFFFFFFFF) (ids : List UInt32) (extras : List Status) :
    plainPaths (ids.map fun id => (⟨kind, endpoint, cluster, id⟩, extras)) = [] := by
  induction ids with
  | nil => rfl
  | cons id ids ih =>
    rw [List.map_cons, plainPaths_cons_of_wildcard, ih]
    rcases h with rfl | rfl <;> simp [CommandPath.isWildcard]

variable {commands : List CommandId} {attributes : List AttributeId}

/-- Commands and attributes with one id have different paths. -/
theorem isClear_scope_iff (hendpoint : endpoint ≠ 0xFFFF) (hcluster : cluster ≠ 0xFFFFFFFF) :
    j.IsClear (JudgeCall.addScope endpoint cluster commands attributes extras).requests ↔
      j.IsClearScope endpoint cluster commands attributes := by
  have hpaths := plainPaths_append
    (commands.map fun id => (⟨.invoke, endpoint, cluster, id⟩, []))
    (attributes.map fun id => (⟨.write, endpoint, cluster, id⟩, extras))
  rw [plainPaths_map .invoke hendpoint hcluster, plainPaths_map .write hendpoint hcluster] at hpaths
  have hinjective (kind : CommandKind) :
      Function.Injective fun id => (⟨kind, endpoint, cluster, id⟩ : CommandPath) :=
    fun _ _ h => congrArg CommandPath.id h
  constructor
  · rintro ⟨honce, hfresh⟩
    rw [JudgeCall.requests, hpaths] at honce hfresh
    obtain ⟨hcommands, hattributes, -⟩ := List.nodup_append.mp honce
    refine ⟨hcommands.of_map, hattributes.of_map, fun id hid hplain => hfresh _ ?_,
      fun id hid hplain => hfresh _ ?_⟩
    · simp [hid, hplain]
    · simp [hid, hplain]
  · rintro ⟨hcommands, hattributes, hcommandsFresh, hattributesFresh⟩
    refine ⟨?_, fun path hpath => ?_⟩
    · rw [JudgeCall.requests, hpaths]
      refine List.nodup_append.mpr ⟨hcommands.map (hinjective .invoke),
        hattributes.map (hinjective .write), fun p hp q hq => ?_⟩
      obtain ⟨id, -, rfl⟩ := List.mem_map.mp hp
      obtain ⟨id', -, rfl⟩ := List.mem_map.mp hq
      simp
    · rw [JudgeCall.requests, hpaths] at hpath
      rcases List.mem_append.mp hpath with hpath | hpath
      · obtain ⟨id, hid, rfl⟩ := List.mem_map.mp hpath
        obtain ⟨hid, hplain⟩ := List.mem_filter.mp hid
        exact hcommandsFresh id hid (of_decide_eq_true hplain)
      · obtain ⟨id, hid, rfl⟩ := List.mem_map.mp hpath
        obtain ⟨hid, hplain⟩ := List.mem_filter.mp hid
        exact hattributesFresh id hid (of_decide_eq_true hplain)

end

section

variable {endpoint : EndpointId} {cluster : ClusterId} {commands : List CommandId}
  {attributes : List AttributeId}

theorem value_addScope_of_clear
    (h : j.IsClear (JudgeCall.addScope endpoint cluster commands attributes extras).requests) :
    let requests := (JudgeCall.addScope endpoint cluster commands attributes extras).requests
    ∃ k, Registered j requests k ∧
      (j.addScope endpoint cluster commands attributes extras).value =
        (k, .ok (plainPaths requests).length) := by
  intro requests
  obtain ⟨k, hk⟩ := h.registered
  have hthrough : (j.addRules requests).value = (k, none) := addRules_eq_none_iff.mpr hk
  refine ⟨k, hk, ?_⟩
  rw [← Nat.add_sub_cancel_left (n := j.rules.size) (m := (plainPaths requests).length),
    ← hk.adds.2.count]
  simp only [requests, JudgeCall.requests] at hthrough
  simp only [addScope, Told.value_bind, hthrough]
  rfl

theorem value_addScope_of_not_clear
    (h : ¬ j.IsClear (JudgeCall.addScope endpoint cluster commands attributes extras).requests) :
    let requests := (JudgeCall.addScope endpoint cluster commands attributes extras).requests
    ∃ k before path more rest, requests = before ++ (path, more) :: rest ∧
      Registered j before k ∧ (k.addRule path more).value = .error ⟨path⟩ ∧
      (j.addScope endpoint cluster commands attributes extras).value = (k, .error ⟨path⟩) := by
  intro requests
  cases hthrough : (j.addRules requests).value with
  | mk k refused =>
    cases refused with
    | none => exact absurd (addRules_eq_none_iff.mp hthrough).adds.1 h
    | some fault =>
      obtain ⟨before, r, rest, hsplit, hbefore, hrefused⟩ := addRules_eq_some_iff.mp hthrough
      obtain ⟨-, -, rfl⟩ := value_addRule_eq_error_iff.mp hrefused
      refine ⟨k, before, r.1, r.2, rest, hsplit, hbefore, hrefused, ?_⟩
      simp only [requests, JudgeCall.requests] at hthrough
      simp only [addScope, Told.value_bind, hthrough]
      rfl

theorem plainPaths_scope_of_wildcard (h : endpoint = 0xFFFF ∨ cluster = 0xFFFFFFFF) :
    plainPaths (JudgeCall.addScope endpoint cluster commands attributes extras).requests = [] := by
  simp only [JudgeCall.requests]
  rw [plainPaths_append, plainPaths_map_of_wildcard .invoke h, plainPaths_map_of_wildcard .write h]
  rfl

theorem length_plainPaths_scope (hendpoint : endpoint ≠ 0xFFFF) (hcluster : cluster ≠ 0xFFFFFFFF) :
    (plainPaths (JudgeCall.addScope endpoint cluster commands attributes extras).requests).length =
      (commands.filter (· ≠ 0xFFFFFFFF)).length + (attributes.filter (· ≠ 0xFFFFFFFF)).length := by
  simp only [JudgeCall.requests]
  rw [plainPaths_append, plainPaths_map .invoke hendpoint hcluster,
    plainPaths_map .write hendpoint hcluster, List.length_append, List.length_map, List.length_map]

theorem Adds.eq_of_nil (h : j.Adds k requests) (hnone : plainPaths requests = []) : k = j := by
  have hrules : k.rules = j.rules := SortedMap.ext_get? fun path => h.kept path (by simp [hnone])
  rw [h.rest, hrules]

end

/-- Registering a cluster comes to registering its commands and then its attributes one by one, up to
the first that is refused. A reserved endpoint or cluster does nothing. Otherwise all goes through
exactly if no id is given twice in its list and none has a rule already, reserved ids left out; then
each of them has its rule, and they are counted. If not, the first path that has a rule, from before or
by an id before it, is told, and the ids before it have their rules. -/
theorem addScope_each (j : Judge) (endpoint : EndpointId) (cluster : ClusterId)
    (commands : List CommandId) (attributes : List AttributeId) (extras : List Status) :
    let requests : List RuleRequest :=
      commands.map (fun id => (⟨.invoke, endpoint, cluster, id⟩, [])) ++
        attributes.map (fun id => (⟨.write, endpoint, cluster, id⟩, extras))
    let played := (j.addScope endpoint cluster commands attributes extras).value
    (∀ n, played.2 = .ok n → Registered j requests played.1) ∧
    (∀ fault, played.2 = .error fault → ∃ before path more rest,
      requests = before ++ (path, more) :: rest ∧ Registered j before played.1 ∧
      (played.1.addRule path more).value = .error fault) ∧
    (endpoint = 0xFFFF ∨ cluster = 0xFFFFFFFF → played = (j, .ok 0)) ∧
    (endpoint ≠ 0xFFFF → cluster ≠ 0xFFFFFFFF →
      ((∃ n, played.2 = .ok n) ↔ j.IsClearScope endpoint cluster commands attributes) ∧
      (∀ n, played.2 = .ok n → j.Adds played.1 requests ∧
        n = (commands.filter (· ≠ 0xFFFFFFFF)).length + (attributes.filter (· ≠ 0xFFFFFFFF)).length) ∧
      (¬ j.IsClearScope endpoint cluster commands attributes → ∃ before path more rest,
        requests = before ++ (path, more) :: rest ∧ j.IsClear before ∧ path.isWildcard = false ∧
        (j.rules.contains path = true ∨ path ∈ plainPaths before) ∧
        played.2 = .error ⟨path⟩ ∧ j.Adds played.1 before)) := by
  intro requests played
  -- all four statements depend on whether some path of the scope is refused
  by_cases hclear : j.IsClear requests
  · obtain ⟨k, hk, hplayed⟩ := value_addScope_of_clear hclear
    have hadds := hk.adds.2
    change played = (k, .ok (plainPaths requests).length) at hplayed
    rw [hplayed]
    refine ⟨fun _ _ => hk, fun _ hfault => (nomatch hfault), fun hwild => ?_,
      fun hendpoint hcluster => ⟨?_, fun n hn => ⟨hadds, ?_⟩, fun hunclear => ?_⟩⟩
    · have hnone : plainPaths requests = [] := plainPaths_scope_of_wildcard hwild
      rw [hadds.eq_of_nil hnone, hnone]
      rfl
    · exact ⟨fun _ => (isClear_scope_iff hendpoint hcluster).mp hclear, fun _ => ⟨_, rfl⟩⟩
    · cases hn
      exact length_plainPaths_scope hendpoint hcluster
    · exact absurd ((isClear_scope_iff hendpoint hcluster).mp hclear) hunclear
  · obtain ⟨k, before, path, more, rest, hsplit, hk, hrefused, hplayed⟩ :=
      value_addScope_of_not_clear hclear
    obtain ⟨hbefore, hadds⟩ := hk.adds
    obtain ⟨hplain, hold, -⟩ := value_addRule_eq_error_iff.mp hrefused
    change played = (k, .error ⟨path⟩) at hplayed
    rw [hplayed]
    refine ⟨fun _ hn => (nomatch hn), fun fault hfault => ?_, fun hwild => ?_,
      fun hendpoint hcluster => ⟨?_, fun _ hn => (nomatch hn), fun _ => ?_⟩⟩
    · cases hfault
      exact ⟨before, path, more, rest, hsplit, hk, hrefused⟩
    · have hnone : plainPaths requests = [] := plainPaths_scope_of_wildcard hwild
      exact absurd ⟨by simp [hnone], by simp [hnone]⟩ hclear
    · refine ⟨fun ⟨_, hn⟩ => (nomatch hn), fun hscope => ?_⟩
      exact absurd ((isClear_scope_iff hendpoint hcluster).mpr hscope) hclear
    · exact ⟨before, path, more, rest, hsplit, hbefore, hplain, hadds.contains_iff.mp hold, rfl,
        hadds⟩

/-- A command and an attribute may have one id, and an attribute that is given twice is refused. -/
theorem addScope_each_twice :
    let j := Judge.new 2
    let p : CommandPath := ⟨.write, 1, 6, 0⟩
    (j.addScope 1 6 [0, 0xFFFFFFFF] [0, 3] [.timeout]).value.2 = .ok 3 ∧
      (j.addScope 0xFFFF 6 [0] [0] []).value = (j, .ok 0) ∧
      (j.addScope 1 6 [0, 2] [0, 0xFFFFFFFF, 0, 1] []).value.2 = .error ⟨p⟩ := by
  intro j p
  refine ⟨?_, ?_, ?_⟩
  · obtain ⟨-, -, -, hscope⟩ := addScope_each j 1 6 [0, 0xFFFFFFFF] [0, 3] [.timeout]
    obtain ⟨hiff, hcount, -⟩ := hscope (by decide) (by decide)
    obtain ⟨n, hn⟩ := hiff.mpr
      ⟨by decide, by decide, fun _ _ _ => rfl, fun _ _ _ => rfl⟩
    rw [hn, (hcount n hn).2]
    rfl
  · obtain ⟨-, -, hwild, -⟩ := addScope_each j 0xFFFF 6 [0] [0] []
    exact hwild (.inl rfl)
  · obtain ⟨-, -, -, hscope⟩ := addScope_each j 1 6 [0, 2] [0, 0xFFFFFFFF, 0, 1] []
    obtain ⟨-, -, hrefused⟩ := hscope (by decide) (by decide)
    obtain ⟨before, path, more, rest, -, -, -, -, hfault, -⟩ :=
      hrefused fun h => absurd h.attributesOnce (by decide)
    have hpath : fault? (j.addScope 1 6 [0, 2] [0, 0xFFFFFFFF, 0, 1] []).value.2 = some ⟨p⟩ := by
      decide
    rw [hfault] at hpath
    rw [hfault]
    exact congrArg Except.error (Option.some.inj hpath)

end Judge

end DeviceTrial
