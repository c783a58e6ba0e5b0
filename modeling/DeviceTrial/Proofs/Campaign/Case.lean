import DeviceTrial.Campaign.Basic
import DeviceTrial.Proofs.Arrival.Order
import DeviceTrial.Proofs.Round.Observed

namespace DeviceTrial

/-- The status that the driver takes down. What the transport reports by a code is mapped, and a
crash reads as a timeout. -/
def Reaction.status : Reaction → Status
  | reply r => r.status
  | fault f => Bench.statusOfCode f.code
  | crash _ => .timeout

/-- All that the device does to the bench while it is asked is to call back, any number of times. -/
def Device.CallsBack {σ : Type} (d : Device σ) : Prop :=
  ∀ state b destination path payload, ∃ locator calls,
    (d.respond state b destination path payload).value.2.2 = b.receiveAll locator calls

/-- The round is the one that the driver plays under the given number. -/
structure Round.IsOwn (r : Round) (round : Nat) (path : CommandPath) : Prop where
  id : r.id = round
  signal : r.signal = .own
  path : r.path = some path
  slot : r.slot = some (.own round)

/-- The latest round is the one that the driver plays, and it goes on. -/
structure Rounds.IsPlaying (s : Rounds) (round : Nat) (path : CommandPath) : Prop where
  nextId : s.nextId = round + 1
  active : ∃ r, s.active = .ok r ∧ r.IsOwn round path

variable {round : Nat} {path : CommandPath}

theorem Round.IsOwn.update {r : Round} (h : r.IsOwn round path) {u : RoundUpdate}
    (hpath : u.path? = none) (hslot : u.slot? = none) : (r.update u).IsOwn round path where
  id := (r.id_update u).trans h.id
  signal := (r.signal_update u).trans h.signal
  path := by rw [r.path_update, hpath, Option.none_or, h.path]
  slot := by rw [r.slot_update, hslot, Option.none_or, h.slot]

theorem Rounds.isPlaying_target {s : Rounds} (hnext : s.nextId = round + 1)
    (hactive : s.active = .ok (.new round .own)) (waiting needsReport : Bool)
    (destination : NodeId) (path : CommandPath) :
    ((s.after (.update (.flags waiting needsReport))).after
      (.update (.target destination path (.own round)))).IsPlaying round path := by
  have hflags := active_after_update hactive (.flags waiting needsReport)
  refine ⟨?_, _, active_after_update hflags _, rfl, rfl, rfl, rfl⟩
  rw [nextId_after_update hflags, nextId_after_update hactive, hnext]

namespace Rounds.IsPlaying

variable {s : Rounds} (h : s.IsPlaying round path)
include h

/-- Only a target or a destination could take the round away from the driver. -/
theorem update {u : RoundUpdate} (hpath : u.path? = none) (hslot : u.slot? = none) :
    (s.after (.update u)).IsPlaying round path := by
  obtain ⟨hnext, r, hactive, hown⟩ := h
  exact ⟨(nextId_after_update hactive u).trans hnext, r.update u, active_after_update hactive u,
    hown.update hpath hslot⟩

theorem path_live : s.live.bind (·.path) = some path := by
  obtain ⟨-, r, hactive, hown⟩ := h
  rw [(active_eq_ok_iff.mp hactive).1]
  exact hown.path

theorem slot_response (status : Status) :
    (s.after (.update (.response status))).slots.get? (.own round) = some status := by
  obtain ⟨-, r, hactive, hown⟩ := h
  rw [after_update_of_active hactive]
  exact (s.get?_effects r (.response status) (.own round)).trans (if_pos hown.slot)

theorem finalize : ∃ ended, s.finalize [] = .ok ended ∧
    ended.value.2.slots = s.slots ∧ ended.value.2.nextId = round + 1 ∧
    ended.value.2.isWaiting .own = false ∧
    ∃ q, ended.value.2.live = some q ∧ q.status = .terminated := by
  obtain ⟨hnext, r, hactive, hown⟩ := h
  obtain ⟨ended, hfinal, hvalue⟩ := finalize_of_active hactive []
  have hadmitted : s.admitted r [] = [] := by rw [admitted, ite_self]
  rw [hadmitted, hown.signal] at hvalue
  refine ⟨ended, hfinal, ?_⟩
  rw [hvalue]
  exact ⟨rfl, hnext, isWaiting_setWaiting_false s .own, _, rfl, rfl⟩

end Rounds.IsPlaying

namespace Bench

variable {b : Bench} (h : b.rounds.IsPlaying round path)
include h

theorem isPlaying_answered (asked : Option CommandPath) (status : Status) :
    (b.answered asked status).rounds.IsPlaying round path :=
  h.update rfl rfl

theorem isPlaying_reported (p : AttributePath) (x : ReportEffect) :
    (b.reported p x).rounds.IsPlaying round path := by
  cases hedit : b.store.edit p x.told x.change with
  | error fault => rwa [b.reported_of_error hedit]
  | ok store =>
    rw [b.reported_of_ok hedit]
    change (x.note p b.rounds).IsPlaying round path
    unfold ReportEffect.note
    cases x.isNoted with
    | false => exact h
    | true => exact h.update rfl rfl

theorem isPlaying_receive (locator : Locator) (a : Arrival) :
    (b.receive locator a).value.rounds.IsPlaying round path := by
  rw [b.value_receive]
  cases a with
  | response asked status raw => exact isPlaying_answered h _ status
  | failure exchange code => exact isPlaying_answered h _ _
  | event => exact h
  | report p status raw =>
    dsimp only
    cases ReportEffect.of? locator p status raw with
    | none => exact h
    | some x => exact isPlaying_reported h p x

theorem isPlaying_receiveAll (locator : Locator) (calls : List Arrival) :
    (b.receiveAll locator calls).rounds.IsPlaying round path := by
  induction calls generalizing b with
  | nil => exact h
  | cons a calls ih => exact ih (isPlaying_receive h locator a)

end Bench

def Rounds.lastId? (s : Rounds) : Option Nat :=
  match s.nextId with
  | 0 => none
  | id + 1 => some id

theorem Rounds.nextId_eq (s : Rounds) : s.nextId = s.lastId?.elim 0 (· + 1) := by
  unfold lastId?
  cases s.nextId <;> rfl

namespace Campaign

variable {σ : Type} {d : Device σ} {c : Campaign}

/-- The bench as the device finds it when it is asked. -/
def prepared (c : Campaign) (case : TestCase) : Bench :=
  let s := c.bench.rounds
  let needs := c.settings.awaitReports && s.expects case.path
  { c.bench with
    rounds := ((s.started .own).after (.update (.flags needs needs))).after
      (.update (.target c.settings.destination case.path (.own s.nextId))) }

/-- What the device makes of the case: its reaction, its own state and the bench. -/
def ask (d : Device σ) (c : Campaign) (state : σ) (case : TestCase) : Reaction × σ × Bench :=
  (d.respond state (c.prepared case) c.settings.destination case.path case.payload).value

theorem isPlaying_prepared (c : Campaign) (case : TestCase) :
    (c.prepared case).rounds.IsPlaying c.bench.rounds.nextId case.path :=
  Rounds.isPlaying_target rfl (c.bench.rounds.active_started .own) ..

theorem isPlaying_ask (hd : d.CallsBack) (c : Campaign) (state : σ) (case : TestCase) :
    (c.ask d state case).2.2.rounds.IsPlaying c.bench.rounds.nextId case.path := by
  obtain ⟨locator, calls, hcalls⟩ :=
    hd state (c.prepared case) c.settings.destination case.path case.payload
  rw [ask, hcalls]
  exact Bench.isPlaying_receiveAll (c.isPlaying_prepared case) locator calls

/-- Whatever the device did, its own answer is held against the path of the case. -/
theorem value_receive_received {b : Bench} {round : Nat} {case : TestCase}
    (h : b.rounds.IsPlaying round case.path) (destination : NodeId) (reaction : Reaction) :
    (receive b case (reaction.received destination case.path).value).value =
      b.answered (some case.path) reaction.status := by
  cases reaction with
  | reply r => exact b.value_receive .firstOfStruct (.response case.path r.status r.response)
  | fault f =>
    simp only [Reaction.received, receive, Told.value_pure, Told.value_bind, b.value_receive,
      h.path_live]
    rfl
  | crash reason => exact b.value_receive .firstOfStruct (.response case.path .timeout none)

theorem value_drive {state next : σ} {case : TestCase} {reaction : Reaction} {left heard : Bench}
    {ended : Told (RoundOutcome × Rounds)} {response : Option Status}
    (hasked : c.ask d state case = (reaction, next, left))
    (hheard : (receive left case
      (reaction.received c.settings.destination case.path).value).value = heard)
    (hfinal : heard.rounds.finalize [] = .ok ended)
    (hslot : ended.value.2.slots.get? (.own c.bench.rounds.nextId) = response) :
    (drive d { c.bench with rounds := c.bench.rounds.started .own } state c.settings
        c.bench.rounds.nextId case).value =
      (.ok (ended.value.1, response), { heard with rounds := ended.value.2 }, next) := by
  let needs := c.settings.awaitReports && c.bench.rounds.expects case.path
  have hactive := c.bench.rounds.active_started .own
  have hflags := Rounds.update_eq_after hactive (.flags needs needs)
  have htarget := Rounds.update_eq_after (Rounds.active_after_update hactive (.flags needs needs))
    (.target c.settings.destination case.path (.own c.bench.rounds.nextId))
  have hexpects : (c.bench.rounds.started .own).expects case.path =
      c.bench.rounds.expects case.path := rfl
  unfold ask prepared at hasked
  unfold drive
  simp only [hexpects, needs] at hflags htarget ⊢
  simp only [hflags, htarget, Told.value_bind, hasked, hheard, hfinal, hslot, Told.value_pure]

theorem value_release {s : Rounds} {r : Round} (hlive : s.live = some r)
    (hstatus : r.status = .terminated) : (release s).value = (none, { s with live := none }) := by
  have hclose : ∃ closed, s.close false = .ok closed := by
    unfold Rounds.close
    rw [hlive]
    exact ⟨_, if_pos (.inl hstatus)⟩
  obtain ⟨closed, hclose⟩ := hclose
  rw [release, hclose, ← Rounds.value_close hclose]
  rfl

theorem value_runCase_of_drive (hlive : c.bench.rounds.live = none) {state next : σ}
    {case : TestCase} {outcome : RoundOutcome} {response : Option Status} {b : Bench} {r : Round}
    (hdrive : (drive d { c.bench with rounds := c.bench.rounds.started .own } state c.settings
      c.bench.rounds.nextId case).value = (.ok (outcome, response), b, next))
    (hended : b.rounds.live = some r) (hstatus : r.status = .terminated) :
    let round := c.bench.rounds.nextId
    (c.runCase d state case).value =
      (if b.judge.current = .unreachable then .error (.unreachable round)
        else .ok ⟨round, outcome, response, b.judge.current⟩,
        { c with
          bench := { b with rounds := { b.rounds with live := none } }
          history := c.history ++ [case.historyLine response] },
        next) := by
  obtain ⟨opened, hstart, hopened⟩ := Rounds.start_of_live_none hlive .own
  unfold runCase
  simp only [hstart, Told.value_bind, hopened, hdrive, value_release hended hstatus]
  unfold conclude
  simp only [Told.value_bind]
  split <;> rfl

theorem value_runCase (hd : d.CallsBack) (hlive : c.bench.rounds.live = none) (state : σ)
    (case : TestCase) :
    let asked := c.ask d state case
    let status := asked.1.status
    let round := c.bench.rounds.nextId
    let judge := (asked.2.2.judge.consume case.path (.plain status)).value
    ∃ ended, (asked.2.2.answered (some case.path) status).rounds.finalize [] = .ok ended ∧
      ended.value.2.nextId = round + 1 ∧ ended.value.2.isWaiting .own = false ∧
      (c.runCase d state case).value =
        (if judge.current = .unreachable then .error (.unreachable round)
          else .ok ⟨round, ended.value.1, some status, judge.current⟩,
          { c with
            bench := { asked.2.2 with judge, rounds := { ended.value.2 with live := none } }
            history := c.history ++ [case.historyLine (some status)] },
          asked.2.1) := by
  intro asked status round judge
  have hplaying := isPlaying_ask hd c state case
  have hheard := value_receive_received hplaying c.settings.destination asked.1
  obtain ⟨ended, hfinal, hslots, hnext, hwaiting, q, hq, hterminated⟩ :=
    (Bench.isPlaying_answered hplaying (some case.path) status).finalize
  have hslot : ended.value.2.slots.get? (.own round) = some status := by
    rw [hslots]
    exact hplaying.slot_response status
  have hdrive := value_drive (rfl : c.ask d state case = asked) hheard hfinal hslot
  exact ⟨ended, hfinal, hnext, hwaiting, value_runCase_of_drive hlive hdrive hq hterminated⟩

/-- Without a live round every case is played to its end, whatever the device calls back before it
replies, fails or crashes. The round gets the next number. What is taken down is the status of the
device's own answer, and the verdict is the one that the judge gives on it after the callbacks. The
case fails, with the number of its round, if the device is unreachable, and in no other way. No
round stays open, nobody waits, and the history has one more line. -/
theorem runCase_ends (hd : d.CallsBack) (hlive : c.bench.rounds.live = none) (state : σ)
    (case : TestCase) :
    let asked := c.ask d state case
    let status := asked.1.status
    let verdict := (asked.2.2.judge.consume case.path (.plain status)).value.current
    let round := c.bench.rounds.lastId?.elim 0 (· + 1)
    let played := (c.runCase d state case).value
    let after := played.2.1
    (verdict = .unreachable → played.1 = .error (.unreachable round)) ∧
      (verdict ≠ .unreachable → ∃ outcome, played.1 = .ok ⟨round, outcome, some status, verdict⟩) ∧
      after.bench.rounds.live = none ∧ after.bench.rounds.isWaiting .own = false ∧
      after.bench.rounds.lastId? = some round ∧
      after.history = c.history ++
        [case.path.describe ++ " payload=" ++ Hex.encode case.payload ++ " -> " ++
          status.describe] := by
  intro asked status verdict round played after
  have hround : c.bench.rounds.nextId = round := c.bench.rounds.nextId_eq
  obtain ⟨ended, -, hnext, hwaiting, hplayed⟩ := value_runCase hd hlive state case
  have hresult : played.1 = if verdict = .unreachable then .error (.unreachable round)
      else .ok ⟨round, ended.value.1, some status, verdict⟩ := by
    rw [← hround]
    exact congrArg (·.1) hplayed
  have hafter : after = _ := congrArg (·.2.1) hplayed
  refine ⟨fun hverdict => ?_, fun hverdict => ⟨ended.value.1, ?_⟩, ?_, ?_, ?_, ?_⟩
  · rw [hresult, if_pos hverdict]
  · rw [hresult, if_neg hverdict]
  · rw [hafter]
  · rw [hafter]
    exact hwaiting
  · rw [hafter, Rounds.lastId?, hnext, hround]
  · rw [hafter]
    rfl

/-- A device that reports a response of its own, then a failure that stands for a timeout, and then
crashes. The second of the two timeouts in a row makes it unreachable. -/
theorem runCase_ends_crash :
    let d : Device Unit := ⟨fun state b _ path _ => do
      let b ← b.receive .firstOfStruct (.response path .success none)
      let b ← b.receive .firstOfStruct (.failure .read 0x94)
      return (.crash none, state, b)⟩
    let c := Campaign.new {} none
    let case : TestCase := ⟨⟨.invoke, 1, 6, 2⟩, [0x15, 0x18]⟩
    (c.runCase d () case).value.1 = .error (.unreachable 0) ∧
      (c.runCase d () case).value.2.1.bench.rounds.live = none ∧
      (c.runCase d () case).value.2.1.bench.rounds.isWaiting .own = false ∧
      (c.runCase d () case).value.2.1.bench.rounds.lastId? = some 0 ∧
      (c.runCase d () case).value.2.1.history = [case.historyLine (some .timeout)] := by
  intro d c case
  have hd : d.CallsBack := fun state b destination path payload =>
    ⟨.firstOfStruct, [.response path .success none, .failure .read 0x94], rfl⟩
  have hnone : c.bench.rounds.live = none := rfl
  obtain ⟨hunreachable, -, hlive, hwaiting, hlast, hhistory⟩ := runCase_ends hd hnone () case
  exact ⟨hunreachable (by decide), hlive, hwaiting, hlast, hhistory⟩

end Campaign

end DeviceTrial
