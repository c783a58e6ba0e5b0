import DeviceTrial.Arrival
import DeviceTrial.Proofs.Round.Runs
import DeviceTrial.Proofs.Store.Edits

namespace DeviceTrial

/-- What a report is meant to do: change its attribute and, where it carries a value, be noted on
the live round. -/
structure ReportEffect where
  told : Option UInt16
  change : Attribute → Except StoreFault Attribute
  isNoted : Bool

def ReportEffect.of? (locator : Locator) (path : AttributePath) (status : Status)
    (raw : Option (List UInt8)) : Option ReportEffect :=
  if status ≠ .success then
    if Bench.closesGate path status then some ⟨none, fun a => .ok a.shut, false⟩ else none
  else do
    let envelope ← (Element.decode (← raw)).toOption
    let payload ← locator.locate envelope
    return ⟨payload.revision?, Store.written path payload, true⟩

/-- What the rounds make of a report that went through. -/
def ReportEffect.note (x : ReportEffect) (path : AttributePath) (s : Rounds) : Rounds :=
  if x.isNoted then s.after (.update (.changed (.ofList [path]))) else s

namespace Bench

variable (b : Bench)

theorem value_updateRound (u : RoundUpdate) :
    (b.updateRound u).value = { b with rounds := b.rounds.after (.update u) } := by
  cases hupdate : b.rounds.update u with
  | error fault =>
    simp only [updateRound, Rounds.after, hupdate]
    rfl
  | ok next =>
    simp only [updateRound, Rounds.after, hupdate]
    rfl

theorem value_judgeAnswer (path : CommandPath) (status : Status) :
    (b.judgeAnswer path status).value =
      { b with judge := (b.judge.consume path (.plain status)).value } := by
  unfold judgeAnswer
  simp only [Told.value_bind]
  split <;> rfl

/-- What an answer to the given path leaves behind. -/
def answered (path : Option CommandPath) (status : Status) : Bench :=
  { b with
    judge := match path with
      | some path => (b.judge.consume path (.plain status)).value
      | none => b.judge
    rounds := b.rounds.after (.update (.response status)) }

theorem value_receiveResponse (path : CommandPath) (status : Status) (raw : Option (List UInt8)) :
    (b.receiveResponse path status raw).value = b.answered (some path) status := by
  unfold receiveResponse
  rw [Told.value_bind, Told.value_bind, value_updateRound, value_judgeAnswer]
  rfl

theorem value_receiveFailure (exchange : Exchange) (code : UInt32) :
    (b.receiveFailure exchange code).value =
      b.answered (b.rounds.live.bind (·.path)) (statusOfCode code) := by
  unfold receiveFailure
  cases hpath : b.rounds.live.bind (·.path) with
  | none => exact value_updateRound b _
  | some path =>
    refine (value_updateRound _ _).trans ?_
    rw [value_judgeAnswer]
    rfl

def reported (path : AttributePath) (x : ReportEffect) : Bench :=
  match b.store.edit path x.told x.change with
  | .error _ => b
  | .ok store => { b with store, rounds := x.note path b.rounds }

theorem reported_of_ok {path : AttributePath} {x : ReportEffect} {store : Store}
    (h : b.store.edit path x.told x.change = .ok store) :
    b.reported path x = { b with store, rounds := x.note path b.rounds } := by
  rw [reported, h]

theorem reported_of_error {path : AttributePath} {x : ReportEffect} {fault : StoreFault}
    (h : b.store.edit path x.told x.change = .error fault) : b.reported path x = b := by
  rw [reported, h]

theorem value_storeReport (path : AttributePath) (payload : Element) :
    (b.storeReport path payload).value =
      b.reported path ⟨payload.revision?, Store.written path payload, true⟩ := by
  have hwrite := b.store.write_eq_edit path payload
  cases hedit : b.store.edit path payload.revision? (Store.written path payload) with
  | error fault =>
    simp only [storeReport, reported, hwrite, hedit]
    rfl
  | ok store =>
    simp only [storeReport, reported, hwrite, hedit]
    exact value_updateRound { b with store } _

/-- Adding the attribute and closing its gate is one edit. -/
theorem value_closeGate (path : AttributePath) (status : Status)
    (hcloses : closesGate path status = true) :
    (b.closeGate path status).value =
      b.reported path ⟨none, fun a => .ok a.shut, false⟩ := by
  cases hcluster : b.store.cluster path.node path.endpoint path.cluster with
  | error fault =>
    have hshut : b.store.edit path none (fun a => .ok a.shut) = _ := Store.shut_of_error hcluster
    simp only [closeGate, reported, hcloses, Store.addAttribute_of_error hcluster, hshut]
    rfl
  | ok c =>
    have hshut : b.store.edit path none (fun a => .ok a.shut) = _ := Store.shut_of_ok hcluster
    simp only [closeGate, reported, hcloses, Store.addAttribute_of_ok hcluster, hshut,
      Store.isReadable_putCluster, Store.toggle_putCluster]
    -- an open gate is toggled, a closed one stays as it is
    cases hopen : ((c.attributes.get? path.id).getD {}).readable with
    | true =>
      rw [Attribute.shut_of_open hopen]
      rfl
    | false =>
      rw [Attribute.shut_of_shut hopen]
      rfl

theorem value_receiveReport (locator : Locator) (path : AttributePath) (status : Status)
    (raw : Option (List UInt8)) :
    (b.receiveReport locator path status raw).value =
      match ReportEffect.of? locator path status raw with
      | none => b
      | some x => b.reported path x := by
  unfold receiveReport ReportEffect.of?
  by_cases hstatus : status ≠ .success
  · rw [if_pos hstatus, if_pos hstatus]
    cases hcloses : closesGate path status with
    | true => exact value_closeGate b path status hcloses
    | false =>
      rw [closeGate, hcloses]
      rfl
  · rw [if_neg hstatus, if_neg hstatus]
    cases raw with
    | none => rfl
    | some raw =>
      cases hdecode : Element.decode raw with
      | error fault =>
        simp only [hdecode, Option.bind_eq_bind, Option.bind_some, Except.toOption]
        rfl
      | ok envelope =>
        cases hlocate : locator.locate envelope with
        | none =>
          simp only [hdecode, hlocate, Option.bind_eq_bind, Option.bind_some, Except.toOption]
          rfl
        | some payload =>
          simp only [hdecode, hlocate, Option.bind_eq_bind, Option.bind_some, Except.toOption]
          exact value_storeReport b path payload

end Bench

end DeviceTrial
