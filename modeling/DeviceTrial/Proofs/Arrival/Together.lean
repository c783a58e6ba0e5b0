import DeviceTrial.Proofs.Arrival.Order
import DeviceTrial.Proofs.Judge.Rules
import DeviceTrial.Proofs.Round.Changes
import DeviceTrial.Proofs.Store.Kept

namespace DeviceTrial

/-! ## One report -/

/-- The store after a report of a value: the bytes have to decode, the locator has to find a value in
them, and the store has to take it. -/
def Store.report? (s : Store) (locator : Locator) (path : AttributePath)
    (raw : Option (List UInt8)) : Option Store := do
  let envelope ← (Element.decode (← raw)).toOption
  let payload ← locator.locate envelope
  (s.write path payload).toOption

theorem Store.report?_eq_some_iff {s t : Store} {locator : Locator} {path : AttributePath}
    {raw : Option (List UInt8)} : s.report? locator path raw = some t ↔
      ∃ bytes envelope v, raw = some bytes ∧ Element.decode bytes = .ok envelope ∧
        locator.locate envelope = some v ∧ s.write path v = .ok t := by
  simp only [report?, Option.bind_eq_bind, Option.bind_eq_some_iff, toOption_eq_some_iff]
  constructor
  · rintro ⟨bytes, hraw, envelope, hdecode, v, hlocate, hwrite⟩
    exact ⟨bytes, envelope, v, hraw, hdecode, hlocate, hwrite⟩
  · rintro ⟨bytes, envelope, v, hraw, hdecode, hlocate, hwrite⟩
    exact ⟨bytes, hraw, envelope, hdecode, v, hlocate, hwrite⟩

/-- What an arrival tells the live round, by the store that it finds. -/
def Arrival.update? (s : Store) (locator : Locator) : Arrival → Option RoundUpdate
  | response _ status _ => some (.response status)
  | report path status raw =>
    if status = .success then (s.report? locator path raw).map fun _ => .changed (.ofList [path])
    else none
  | event .. => none
  | failure _ code => some (.response (Bench.statusOfCode code))

theorem ReportEffect.current_change {locator : Locator} {path : AttributePath} {status : Status}
    {raw : Option (List UInt8)} {x : ReportEffect} (h : of? locator path status raw = some x)
    {a b : Attribute} (hchange : x.change a = .ok b) (ha : a.current.isSome = true) :
    b.current.isSome = true := by
  unfold of? at h
  by_cases hstatus : status ≠ .success
  · rw [if_pos hstatus, Option.ite_none_right_eq_some] at h
    obtain ⟨-, hx⟩ := h
    cases hx
    cases hchange
    exact ha
  · rw [if_neg hstatus] at h
    simp only [Option.bind_eq_bind, Option.bind_eq_some_iff] at h
    obtain ⟨-, -, -, -, payload, -, hx⟩ := h
    cases hx
    change Store.written path payload a = .ok b at hchange
    unfold Store.written at hchange
    split at hchange
    · next hwrite =>
      cases hchange
      rw [Attribute.eq_of_write hwrite]
      rfl
    · cases hchange

namespace Bench

variable (b : Bench)

theorem value_storeReport_eq (path : AttributePath) (payload : Element) :
    (b.storeReport path payload).value = match b.store.write path payload with
      | .ok store =>
        { b with store, rounds := b.rounds.after (.update (.changed (.ofList [path]))) }
      | .error _ => b := by
  rw [value_storeReport, reported, b.store.write_eq_edit]
  cases b.store.edit path payload.revision? (Store.written path payload) <;> rfl

theorem value_receiveReport_success (locator : Locator) (path : AttributePath)
    (raw : Option (List UInt8)) :
    (b.receiveReport locator path .success raw).value = match b.store.report? locator path raw with
      | some store =>
        { b with store, rounds := b.rounds.after (.update (.changed (.ofList [path]))) }
      | none => b := by
  unfold receiveReport
  rw [if_neg (not_not.mpr rfl)]
  cases raw with
  | none => rfl
  | some bytes =>
    simp only [Store.report?, Option.bind_eq_bind, Option.bind_some]
    cases Element.decode bytes with
    | error fault => rfl
    | ok envelope =>
      simp only [Except.toOption, Option.bind_some]
      cases locator.locate envelope with
      | none => rfl
      | some payload =>
        refine (b.value_storeReport_eq path payload).trans ?_
        rw [Option.bind_some]
        cases b.store.write path payload <;> rfl

/-- What is no success may close a gate, which the rounds do not see. -/
theorem rounds_receiveReport_of_ne (locator : Locator) (path : AttributePath) {status : Status}
    (h : status ≠ .success) (raw : Option (List UInt8)) :
    (b.receiveReport locator path status raw).value.rounds = b.rounds := by
  rw [value_receiveReport, ReportEffect.of?, if_pos h]
  cases closesGate path status with
  | false => rfl
  | true =>
    change (b.reported path _).rounds = b.rounds
    unfold reported
    split <;> rfl

theorem rounds_receive (locator : Locator) (a : Arrival) : (b.receive locator a).value.rounds =
    (a.update? b.store locator).elim b.rounds fun u => b.rounds.after (.update u) := by
  have hvalue := congrArg Bench.rounds (b.value_receive locator a)
  cases a with
  | response | event | failure => exact hvalue
  | report path status raw =>
    change (b.receiveReport locator path status raw).value.rounds = _
    by_cases hstatus : status = .success
    · rw [hstatus, value_receiveReport_success, Arrival.update?, if_pos rfl]
      cases b.store.report? locator path raw <;> rfl
    · rw [rounds_receiveReport_of_ne b locator path hstatus, Arrival.update?, if_neg hstatus]
      rfl

theorem samePlaces_reported (path : AttributePath) (x : ReportEffect) :
    b.store.SamePlaces (b.reported path x).store := by
  unfold reported
  split
  · exact .refl b.store
  · next hedit => exact Store.samePlaces_edit hedit

theorem samePlaces_receive (locator : Locator) (a : Arrival) :
    b.store.SamePlaces (b.receive locator a).value.store := by
  rw [b.value_receive]
  cases a with
  | response | event | failure => exact .refl b.store
  | report path status raw =>
    dsimp only
    cases ReportEffect.of? locator path status raw with
    | none => exact .refl b.store
    | some x => exact b.samePlaces_reported path x

variable {b}

theorem hasValue_receive {p : AttributePath} (h : b.store.HasValue p) (locator : Locator)
    (a : Arrival) : (b.receive locator a).value.store.HasValue p := by
  rw [b.value_receive]
  cases a with
  | response | event | failure => exact h
  | report path status raw =>
    dsimp only
    cases hx : ReportEffect.of? locator path status raw with
    | none => exact h
    | some x =>
      change (b.reported path x).store.HasValue p
      cases hedit : b.store.edit path x.told x.change with
      | error fault => rwa [b.reported_of_error hedit]
      | ok store =>
        rw [b.reported_of_ok hedit]
        exact Store.hasValue_edit hedit (fun _ _ hc ha => x.current_change hx hc ha) h

end Bench

/-! ## Runs -/

theorem Rounds.deliver_cons (s : Rounds) (u : RoundUpdate) (us : List RoundUpdate) :
    (s.deliver (u :: us)).2 = ((s.after (.update u)).deliver us).2 := by
  rw [deliver, after]
  cases s.update u <;> rfl

/-- What may go on at any time, also while the end of a round waits. -/
inductive BenchCall where
  | arrive (locator : Locator) (a : Arrival)
  | store (call : StoreCall)
  | judge (call : JudgeCall)
  | update (u : RoundUpdate)

inductive BenchStep where
  | call (call : BenchCall)
  | start (signal : Signal)
  /-- Ends the live round, with the calls that come while it waits. -/
  | finalize (meanwhile : List BenchCall)
  | close (force : Bool)
  | drain
  | fill (slot : Slot) (status : Status)

/-- The call leaves it to the reports to name changes, and does not replace the store. -/
def BenchCall.isPlain : BenchCall → Bool
  | update (.changed _) | store (.load _) => false
  | _ => true

def BenchStep.isPlain : BenchStep → Bool
  | call c => c.isPlain
  | finalize meanwhile => meanwhile.all (·.isPlain)
  | _ => true

namespace Bench

def after (b : Bench) : BenchCall → Bench
  | .arrive locator a => (b.receive locator a).value
  | .store call => { b with store := b.store.after call }
  | .judge call => { b with judge := b.judge.after call }
  | .update u => { b with rounds := b.rounds.after (.update u) }

/-- What a call tells the rounds. -/
def told? (b : Bench) : BenchCall → Option RoundUpdate
  | .arrive locator a => a.update? b.store locator
  | .store _ | .judge _ => none
  | .update u => some u

def hear (b : Bench) : List BenchCall → Bench × List RoundUpdate
  | [] => (b, [])
  | call :: calls =>
    let (heard, us) := hear (b.after call) calls
    (heard, (b.told? call).toList ++ us)

/-- The calls that come in while the end of the live round waits. -/
def admitted (b : Bench) (meanwhile : List BenchCall) : List BenchCall :=
  match b.rounds.active with
  | .ok r => if b.rounds.waits r then meanwhile else []
  | .error _ => []

def step (b : Bench) : BenchStep → Bench
  | .call c => b.after c
  | .start signal => { b with rounds := b.rounds.after (.start signal) }
  | .finalize meanwhile =>
    let (heard, us) := b.hear (b.admitted meanwhile)
    { heard with rounds := b.rounds.after (.finalize us) }
  | .close force => { b with rounds := b.rounds.after (.close force) }
  | .drain => { b with rounds := b.rounds.after .drain }
  | .fill slot status => { b with rounds := b.rounds.after (.fill slot status) }

def run (b : Bench) (steps : List BenchStep) : Bench := steps.foldl step b

variable {b : Bench} {p : AttributePath}

theorem rounds_after (b : Bench) (call : BenchCall) : (b.after call).rounds =
    (b.told? call).elim b.rounds fun u => b.rounds.after (.update u) := by
  cases call with
  | store | judge | update => rfl
  | arrive locator a => exact b.rounds_receive locator a

/-- The calls leave the rounds as they are when all that is told has been delivered, so the end of a
round that is given these updates goes on from there. -/
theorem rounds_hear (b : Bench) (calls : List BenchCall) :
    (b.hear calls).1.rounds = (b.rounds.deliver (b.hear calls).2).2 := by
  induction calls generalizing b with
  | nil => rfl
  | cons call calls ih =>
    change ((b.after call).hear calls).1.rounds =
      (b.rounds.deliver ((b.told? call).toList ++ ((b.after call).hear calls).2)).2
    rw [ih, rounds_after]
    cases b.told? call with
    | none => rfl
    | some u => exact (b.rounds.deliver_cons u _).symm

theorem hasValue_after {call : BenchCall} (hplain : call.isPlain = true)
    (h : b.store.HasValue p) : (b.after call).store.HasValue p := by
  cases call with
  | arrive locator a => exact hasValue_receive h locator a
  | store call => exact h.after fun x hx => by rw [hx] at hplain; cases hplain
  | judge | update => exact h

theorem hasValue_of_told {call : BenchCall} (hplain : call.isPlain = true) {u : RoundUpdate}
    (htold : b.told? call = some u) (hp : u.paths.contains p = true) :
    (b.after call).store.HasValue p := by
  cases call with
  | store | judge => cases htold
  | update v =>
    cases htold
    cases u with
    | changed paths => cases hplain
    | target | destination | response | flags => cases hp
  | arrive locator a =>
    change a.update? b.store locator = some u at htold
    cases a with
    | event => cases htold
    | response | failure =>
      cases htold
      cases hp
    | report path status raw =>
      rw [Arrival.update?, Option.ite_none_right_eq_some] at htold
      obtain ⟨rfl, hreport⟩ := htold
      obtain ⟨t, ht, rfl⟩ := Option.map_eq_some_iff.mp hreport
      change (b.receiveReport locator path .success raw).value.store.HasValue p
      rw [value_receiveReport_success, ht]
      obtain ⟨bytes, envelope, v, -, -, -, hwrite⟩ := Store.report?_eq_some_iff.mp ht
      obtain rfl := List.mem_singleton.mp (SortedSet.contains_ofList.mp hp)
      exact Store.hasValue_write hwrite

theorem hasValue_hear {calls : List BenchCall} (hplain : ∀ c ∈ calls, c.isPlain = true)
    (h : b.store.HasValue p ∨ ∃ u ∈ (b.hear calls).2, u.paths.contains p = true) :
    (b.hear calls).1.store.HasValue p := by
  induction calls generalizing b with
  | nil => exact h.resolve_right fun ⟨u, hu, _⟩ => List.not_mem_nil hu
  | cons call calls ih =>
    obtain ⟨hcall, hcalls⟩ := List.forall_mem_cons.mp hplain
    refine ih hcalls ?_
    obtain hold | ⟨u, hu, hp⟩ := h
    · exact .inl (hasValue_after hcall hold)
    · rcases List.mem_append.mp hu with hu | hu
      · exact .inl (hasValue_of_told hcall (Option.mem_toList.mp hu) hp)
      · exact .inr ⟨u, hu, hp⟩

/-- Whatever the rounds name as changed has a value. -/
def IsBacked (b : Bench) : Prop := ∀ p, b.rounds.Names p → b.store.HasValue p

theorem IsBacked.turn (h : b.IsBacked) (call : RoundCall) {next : Bench}
    (hkept : ∀ p, b.store.HasValue p → next.store.HasValue p)
    (hrounds : next.rounds = b.rounds.after call)
    (htold : ∀ u ∈ call.updates, ∀ p, u.paths.contains p = true → next.store.HasValue p) :
    next.IsBacked := by
  intro p hp
  rw [hrounds] at hp
  obtain hold | ⟨u, hu, hnamed⟩ := Rounds.names_after hp
  · exact hkept p (h p hold)
  · exact htold u hu p hnamed

theorem IsBacked.after (h : b.IsBacked) {call : BenchCall} (hplain : call.isPlain = true) :
    (b.after call).IsBacked := by
  have hkept (p : AttributePath) (hp : b.store.HasValue p) := hasValue_after hplain hp
  have hrounds := b.rounds_after call
  cases htold : b.told? call with
  | none =>
    intro p hp
    rw [hrounds, htold] at hp
    exact hkept p (h p hp)
  | some u =>
    rw [htold] at hrounds
    refine h.turn (.update u) hkept hrounds fun v hv p hp => ?_
    rw [List.mem_singleton.mp hv] at hp
    exact hasValue_of_told hplain htold hp

theorem isPlain_admitted {meanwhile : List BenchCall}
    (hplain : (BenchStep.finalize meanwhile).isPlain = true) :
    ∀ c ∈ b.admitted meanwhile, c.isPlain = true := by
  have hall : ∀ c ∈ meanwhile, c.isPlain = true := List.all_eq_true.mp hplain
  unfold admitted
  split
  · split
    · exact hall
    · exact List.forall_mem_nil _
  · exact List.forall_mem_nil _

theorem hasValue_step {s : BenchStep} (hplain : s.isPlain = true) (h : b.store.HasValue p) :
    (b.step s).store.HasValue p := by
  cases s with
  | call c => exact hasValue_after hplain h
  | finalize meanwhile => exact hasValue_hear (isPlain_admitted hplain) (.inl h)
  | start | close | drain | fill => exact h

theorem IsBacked.step (h : b.IsBacked) {s : BenchStep} (hplain : s.isPlain = true) :
    (b.step s).IsBacked := by
  have hkept (p : AttributePath) (hp : b.store.HasValue p) := hasValue_step hplain hp
  cases s with
  | call c => exact h.after hplain
  | finalize meanwhile =>
    exact h.turn (.finalize _) hkept rfl fun u hu p hp =>
      hasValue_hear (isPlain_admitted hplain) (.inr ⟨u, hu, hp⟩)
  | start signal => exact h.turn (.start signal) hkept rfl (List.forall_mem_nil _)
  | close force => exact h.turn (.close force) hkept rfl (List.forall_mem_nil _)
  | drain => exact h.turn .drain hkept rfl (List.forall_mem_nil _)
  | fill slot status => exact h.turn (.fill slot status) hkept rfl (List.forall_mem_nil _)

theorem hasValue_run {steps : List BenchStep} (hplain : ∀ s ∈ steps, s.isPlain = true)
    (h : b.store.HasValue p) : (b.run steps).store.HasValue p := by
  induction steps generalizing b with
  | nil => exact h
  | cons s steps ih =>
    obtain ⟨hs, hsteps⟩ := List.forall_mem_cons.mp hplain
    exact ih hsteps (hasValue_step hs h)

theorem IsBacked.run (h : b.IsBacked) {steps : List BenchStep}
    (hplain : ∀ s ∈ steps, s.isPlain = true) : (b.run steps).IsBacked := by
  induction steps generalizing b with
  | nil => exact h
  | cons s steps ih =>
    obtain ⟨hs, hsteps⟩ := List.forall_mem_cons.mp hplain
    exact ih (h.step hs) hsteps

theorem isBacked_new (s : Store) (judge : Judge) (limit : Nat) :
    IsBacked ⟨s, judge, .new limit⟩ := by
  rintro p (⟨r, hr, -⟩ | ⟨o, ho, -⟩)
  · cases hr
  · cases ho

/-- A report of a value is written and adds its path, and no other, to the changes of the live round,
if there is one that goes on. If the report is not stored, or tells of no success, the round does
not see it, and in the first case nothing happens at all. No arrival adds or removes a node, an
endpoint or a cluster. So in every run in which only reports name changes and the store is not
replaced, whatever a live round or an observation names has a value in the store, and keeps
having one. -/
theorem reports_together (locator : Locator) (b : Bench) (path : AttributePath)
    (raw : Option (List UInt8)) :
    (∀ store, b.store.report? locator path raw = some store →
      ∃ rounds, (b.receiveReport locator path .success raw).value = { b with store, rounds } ∧
        (∀ r, b.rounds.active = .ok r → ∃ changed status,
          rounds = { b.rounds with live := some { r with changed, status } } ∧
          ∀ q, changed.contains q = true ↔ r.changed.contains q = true ∨ q = path) ∧
        ∀ fault, b.rounds.active = .error fault → rounds = b.rounds) ∧
    (b.store.report? locator path raw = none →
      (b.receiveReport locator path .success raw).value = b) ∧
    (∀ status, status ≠ .success →
      (b.receiveReport locator path status raw).value.rounds = b.rounds) ∧
    (∀ a, b.store.SamePlaces (b.receive locator a).value.store) ∧
    ∀ s judge limit steps later p, (∀ step ∈ steps ++ later, step.isPlain = true) →
      (run ⟨s, judge, .new limit⟩ steps).rounds.Names p →
      (run ⟨s, judge, .new limit⟩ (steps ++ later)).store.HasValue p := by
  refine ⟨fun store hstore => ?_, fun hnone => ?_, fun status hstatus => ?_,
    b.samePlaces_receive locator, fun s judge limit steps later p hplain hp => ?_⟩
  · refine ⟨b.rounds.after (.update (.changed (.ofList [path]))), ?_, fun r hr => ?_,
      fun fault hfault => Rounds.after_update_of_error hfault _⟩
    · rw [value_receiveReport_success, hstore]
    · refine ⟨_, _, Rounds.after_update_of_active hr _, fun q => ?_⟩
      change (r.changed.union (SortedSet.ofList [path])).contains q = true ↔ _
      rw [SortedMap.contains_union, SortedSet.contains_ofList, List.mem_singleton]
  · rw [value_receiveReport_success, hnone]
  · exact b.rounds_receiveReport_of_ne locator path hstatus raw
  · obtain ⟨hsteps, hlater⟩ := List.forall_mem_append.mp hplain
    rw [run, List.foldl_append]
    exact hasValue_run hlater ((isBacked_new s judge limit).run hsteps p hp)

/-- The report comes while the end of its round waits, ahead of the response, and its gate is closed
later on. -/
theorem reports_together_waiting :
    let p : AttributePath := ⟨1, 1, 6, 0⟩
    let s := Store.empty.putCluster 1 1 6 (.new 4)
    let steps : List BenchStep :=
      [.start .own, .call (.update (.flags true true)),
        .call (.update (.target 1 ⟨.invoke, 1, 6, 2⟩ (.own 0))),
        .finalize [.arrive .whole (.report p .success (some [0x09])),
          .arrive .whole (.response ⟨.invoke, 1, 6, 2⟩ .success none)]]
    let later : List BenchStep :=
      [.drain, .close false, .call (.arrive .whole (.report p .unsupportedRead none))]
    (∃ rounds, (receiveReport .whole ⟨s, .new 2, .new 3⟩ p .success (some [0x09])).value =
        ⟨(s.report? .whole p (some [0x09])).getD s, .new 2, rounds⟩) ∧
      (run ⟨s, .new 2, .new 3⟩ steps).rounds.Names p ∧
      (run ⟨s, .new 2, .new 3⟩ (steps ++ later)).store.HasValue p ∧
      (run ⟨s, .new 2, .new 3⟩ (steps ++ later)).store.isReadable p = .ok false := by
  intro p s steps later
  obtain ⟨hstored, -, -, -, hruns⟩ :=
    reports_together .whole ⟨s, .new 2, .new 3⟩ p (some [0x09])
  obtain ⟨t, ht⟩ : ∃ t, s.report? .whole p (some [0x09]) = some t := ⟨_, rfl⟩
  obtain ⟨rounds, hvalue, -, -⟩ := hstored t ht
  have hnamed : (run ⟨s, .new 2, .new 3⟩ steps).rounds.Names p := .inl ⟨_, rfl, by decide⟩
  refine ⟨⟨rounds, ?_⟩, hnamed, hruns s (.new 2) 3 steps later p (by decide) hnamed, by decide⟩
  rw [ht]
  exact hvalue

end Bench

end DeviceTrial
