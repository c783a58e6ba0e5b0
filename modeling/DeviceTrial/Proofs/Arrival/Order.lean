import DeviceTrial.Proofs.Arrival.Effects
import DeviceTrial.Proofs.Round.Order

/-!
The order in which arrivals come in does not matter.

An answer and a report meet only in the live round, two reports of different attributes only in the
store and the changes of the round. So arrivals commute two by two, unless both are answers or both
report one attribute, and a batch without such a pair may be reordered at will.
-/

namespace DeviceTrial

namespace Arrival

/-- The arrival is judged and is the response of a round. -/
def isAnswer : Arrival → Bool
  | response .. | failure .. => true
  | _ => false

def reported? : Arrival → Option AttributePath
  | report path .. => some path
  | _ => none

end Arrival

namespace ReportEffect

variable (x y : ReportEffect) (p q : AttributePath) (s : Rounds)

theorem note_note : y.note q (x.note p s) = x.note p (y.note q s) := by
  unfold note
  cases x.isNoted <;> cases y.isNoted <;> first | rfl | exact s.after_changed_changed _ _

theorem note_answered (status : Status) :
    x.note p (s.after (.update (.response status))) =
      (x.note p s).after (.update (.response status)) := by
  unfold note
  cases x.isNoted with
  | false => rfl
  | true => exact s.after_response_changed status _

theorem path_note : (x.note p s).live.bind (·.path) = s.live.bind (·.path) := by
  unfold note
  cases x.isNoted with
  | false => rfl
  | true => exact s.path_after_changed _

end ReportEffect

namespace Bench

variable (b : Bench)

def receiveAll (locator : Locator) (arrivals : List Arrival) : Bench :=
  arrivals.foldl (fun b a => (b.receive locator a).value) b

theorem path_reported (path : AttributePath) (x : ReportEffect) :
    (b.reported path x).rounds.live.bind (·.path) = b.rounds.live.bind (·.path) := by
  cases hedit : b.store.edit path x.told x.change with
  | error fault => rw [b.reported_of_error hedit]
  | ok store =>
    rw [b.reported_of_ok hedit]
    exact x.path_note path b.rounds

theorem answered_reported (asked : Option CommandPath) (status : Status) (path : AttributePath)
    (x : ReportEffect) :
    (b.answered asked status).reported path x = (b.reported path x).answered asked status := by
  cases hedit : b.store.edit path x.told x.change with
  | error fault =>
    have hafter : (b.answered asked status).store.edit path x.told x.change = .error fault := hedit
    rw [b.reported_of_error hedit, reported_of_error _ hafter]
  | ok store =>
    have hafter : (b.answered asked status).store.edit path x.told x.change = .ok store := hedit
    rw [b.reported_of_ok hedit, reported_of_ok _ hafter]
    simp only [answered, x.note_answered]

/-- Reports of different attributes: both go through, or the one that does is not held up by the
other. -/
theorem reported_reported {p q : AttributePath} (h : p ≠ q) (x y : ReportEffect) :
    (b.reported p x).reported q y = (b.reported q y).reported p x := by
  have hseparate := Store.separate_edit h x.told y.told x.change y.change
  cases hx : b.store.edit p x.told x.change with
  | error fault =>
    rw [b.reported_of_error hx]
    cases hy : b.store.edit q y.told y.change with
    | error fault' => rw [b.reported_of_error hy, b.reported_of_error hx]
    | ok u => rw [b.reported_of_ok hy, reported_of_error _ (hseparate.spared _ _ _ hy hx)]
  | ok t =>
    rw [b.reported_of_ok hx]
    cases hy : b.store.edit q y.told y.change with
    | error fault' =>
      rw [b.reported_of_error hy, b.reported_of_ok hx,
        reported_of_error _ (hseparate.spares _ _ _ hx hy)]
    | ok u =>
      obtain ⟨v, hv, hv'⟩ := hseparate.commute _ _ _ hx hy
      rw [b.reported_of_ok hy, reported_of_ok _ hv, reported_of_ok _ hv', x.note_note y]

theorem value_receive (locator : Locator) (a : Arrival) :
    (b.receive locator a).value = match a with
      | .response path status _ => b.answered (some path) status
      | .report path status raw => match ReportEffect.of? locator path status raw with
        | none => b
        | some x => b.reported path x
      | .event .. => b
      | .failure _ code => b.answered (b.rounds.live.bind (·.path)) (statusOfCode code) := by
  cases a with
  | response path status raw => exact b.value_receiveResponse path status raw
  | report path status raw => exact b.value_receiveReport locator path status raw
  | event path status raw => rfl
  | failure exchange code => exact b.value_receiveFailure exchange code

theorem receive_response_report (locator : Locator) (asked : CommandPath) (status status' : Status)
    (raw raw' : Option (List UInt8)) (path : AttributePath) :
    ((b.receive locator (.response asked status raw)).value.receive locator
        (.report path status' raw')).value =
      ((b.receive locator (.report path status' raw')).value.receive locator
        (.response asked status raw)).value := by
  simp only [value_receive]
  cases ReportEffect.of? locator path status' raw' with
  | none => rfl
  | some x => exact b.answered_reported (some asked) status path x

theorem receive_failure_report (locator : Locator) (exchange : Exchange) (code : UInt32)
    (path : AttributePath) (status : Status) (raw : Option (List UInt8)) :
    ((b.receive locator (.failure exchange code)).value.receive locator
        (.report path status raw)).value =
      ((b.receive locator (.report path status raw)).value.receive locator
        (.failure exchange code)).value := by
  simp only [value_receive]
  cases ReportEffect.of? locator path status raw with
  | none => rfl
  | some x =>
    simp only [path_reported]
    exact b.answered_reported _ _ path x

theorem receive_report_report (locator : Locator) {p q : AttributePath} (h : p ≠ q)
    (status status' : Status) (raw raw' : Option (List UInt8)) :
    ((b.receive locator (.report p status raw)).value.receive locator
        (.report q status' raw')).value =
      ((b.receive locator (.report q status' raw')).value.receive locator
        (.report p status raw)).value := by
  simp only [value_receive]
  cases ReportEffect.of? locator p status raw with
  | none => rfl
  | some x =>
    cases ReportEffect.of? locator q status' raw' with
    | none => rfl
    | some y => exact b.reported_reported h x y

/-- Two arrivals commute unless both are answers or both report one attribute. -/
theorem receive_comm (locator : Locator) {x y : Arrival}
    (hanswers : ¬ (x.isAnswer = true ∧ y.isAnswer = true))
    (hpaths : ∀ p, x.reported? = some p → ∀ q, y.reported? = some q → p ≠ q) :
    ((b.receive locator x).value.receive locator y).value =
      ((b.receive locator y).value.receive locator x).value := by
  match x, y with
  | .event .., _ => rfl
  | _, .event .. => rfl
  | .response .., .report .. => exact b.receive_response_report locator _ _ _ _ _ _
  | .failure .., .report .. => exact b.receive_failure_report locator _ _ _ _ _
  | .report .., .response .. => exact (b.receive_response_report locator _ _ _ _ _ _).symm
  | .report .., .failure .. => exact (b.receive_failure_report locator _ _ _ _ _).symm
  | .report .., .report .. => exact b.receive_report_report locator (hpaths _ rfl _ rfl) _ _ _ _
  | .response .., .response .. | .response .., .failure .. => exact (hanswers ⟨rfl, rfl⟩).elim
  | .failure .., .response .. | .failure .., .failure .. => exact (hanswers ⟨rfl, rfl⟩).elim

theorem receive_comm_of_mem (locator : Locator) {arrivals : List Arrival}
    (hanswers : (arrivals.filter (·.isAnswer)).length ≤ 1)
    (hpaths : (arrivals.filterMap (·.reported?)).Nodup) :
    ∀ x ∈ arrivals, ∀ y ∈ arrivals, ∀ b : Bench,
      ((b.receive locator x).value.receive locator y).value =
        ((b.receive locator y).value.receive locator x).value := by
  -- of two arrivals at different places of the batch, at most one is an answer
  have honce : (arrivals.filter (·.isAnswer)).Pairwise fun _ _ => False := by
    generalize arrivals.filter (·.isAnswer) = answers at hanswers
    match answers, hanswers with
    | [], _ => exact List.Pairwise.nil
    | [a], _ => exact List.pairwise_singleton _ a
  have hapart := (List.pairwise_filter.mp honce).and (List.pairwise_filterMap.mp hpaths)
  have hcomm := hapart.imp fun {x y} h (b : Bench) =>
    b.receive_comm locator (x := x) (y := y) (fun hboth => h.1 hboth.1 hboth.2) h.2
  exact hcomm.forall_of_forall_of_flip (fun _ _ _ => rfl) (hcomm.imp fun h b => (h b).symm)

/-- A batch with at most one answer, in which no attribute is reported twice, leaves the same bench
behind in whatever order it arrives: the store, the judge and the rounds with their slots. So the
end of the round is the same. -/
theorem receiveAll_perm (locator : Locator) (b : Bench) {arrivals others : List Arrival}
    (hperm : arrivals.Perm others)
    (hanswers : (arrivals.filter (·.isAnswer)).length ≤ 1)
    (hpaths : (arrivals.filterMap (·.reported?)).Nodup) :
    b.receiveAll locator arrivals = b.receiveAll locator others ∧
      ∀ later, (b.receiveAll locator arrivals).rounds.finalize later =
        (b.receiveAll locator others).rounds.finalize later := by
  have hsame : b.receiveAll locator arrivals = b.receiveAll locator others :=
    hperm.foldl_eq' (receive_comm_of_mem locator hanswers hpaths) b
  exact ⟨hsame, fun later => by rw [hsame]⟩

/-- A response, a report and the closing of a gate, and the same backwards. -/
theorem receiveAll_perm_reverse :
    let run := RoundRun.of 3 [.start .own, .update (.target 1 ⟨.invoke, 1, 6, 2⟩ (.own 0))]
    let b : Bench := ⟨Store.empty.putCluster 1 1 6 (.new 4), .new 2, run.rounds⟩
    let arrivals : List Arrival :=
      [.response ⟨.invoke, 1, 6, 2⟩ .success none, .report ⟨1, 1, 6, 0⟩ .success (some [0x09]),
        .report ⟨1, 1, 6, 1⟩ .unsupportedRead none]
    (b.receiveAll .whole arrivals).rounds.live.map (·.status) = some .reported ∧
      b.receiveAll .whole arrivals = b.receiveAll .whole arrivals.reverse := by
  intro run b arrivals
  have hsame := receiveAll_perm .whole b (List.reverse_perm arrivals).symm (by decide) (by decide)
  exact ⟨rfl, hsame.1⟩

end Bench

end DeviceTrial
