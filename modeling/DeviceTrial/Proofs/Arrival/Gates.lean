import DeviceTrial.Proofs.Arrival.Order
import DeviceTrial.Proofs.Store.Kept

namespace DeviceTrial

/-- The arrival is a report by which the device says that the attribute cannot be read. Of the
clusters that manufacturers define for tests two more statuses say so. -/
def Arrival.SaysUnreadable (p : AttributePath) (a : Arrival) : Prop :=
  ∃ status raw, a = .report p status raw ∧
    (status = .unsupportedRead ∨
      (status = .unsupportedAccess ∨ status = .failure) ∧
        0xFFF1 ≤ (p.cluster >>> 16).toNat ∧ (p.cluster >>> 16).toNat ≤ 0xFFF4 ∧
        0xFC00 ≤ (p.cluster &&& 0xFFFF).toNat)

/-- The manufacturer stands in the high half of the id, the product in the low one. -/
theorem isTestingCluster_iff {c : ClusterId} : isTestingCluster c = true ↔
    0xFFF1 ≤ (c >>> 16).toNat ∧ (c >>> 16).toNat ≤ 0xFFF4 ∧ 0xFC00 ≤ (c &&& 0xFFFF).toNat := by
  have hhigh : (c >>> 16).toNat = c.toNat / 65536 := by
    rw [UInt32.toNat_shiftRight, Nat.shiftRight_eq_div_pow]
    rfl
  have hlow : (c &&& 0xFFFF).toNat = c.toNat % 65536 := by
    rw [UInt32.toNat_and]
    exact Nat.and_two_pow_sub_one_eq_mod c.toNat 16
  rw [isTestingCluster, decide_eq_true_eq, hhigh, hlow]

theorem Bench.closesGate_iff {p : AttributePath} {status : Status} :
    closesGate p status = true ↔ status = .unsupportedRead ∨
      (status = .unsupportedAccess ∨ status = .failure) ∧
        0xFFF1 ≤ (p.cluster >>> 16).toNat ∧ (p.cluster >>> 16).toNat ≤ 0xFFF4 ∧
        0xFC00 ≤ (p.cluster &&& 0xFFFF).toNat := by
  simp only [closesGate, Bool.or_eq_true, Bool.and_eq_true, decide_eq_true_eq, isTestingCluster_iff]

theorem Arrival.saysUnreadable_report {p q : AttributePath} {status : Status}
    {raw : Option (List UInt8)} : (report q status raw).SaysUnreadable p ↔
      q = p ∧ Bench.closesGate p status = true := by
  rw [Bench.closesGate_iff]
  constructor
  · rintro ⟨status, raw, h, hstatus⟩
    cases h
    exact ⟨rfl, hstatus⟩
  · rintro ⟨rfl, hstatus⟩
    exact ⟨status, raw, rfl, hstatus⟩

namespace Store

variable {s t : Store} {p : AttributePath}

theorem isReadable_eq_ok_iff {opened : Bool} : s.isReadable p = .ok opened ↔
    ∃ a, s.attribute? p = some a ∧ a.readable = opened := by
  simp only [isReadable, bind_eq_ok_iff, leaf_eq_ok_iff_eq_some]
  refine exists_congr fun a => and_congr_right fun _ => ?_
  exact iff_of_eq (Except.ok.injEq _ _)

theorem isReadable_congr (h : t.attribute? p = s.attribute? p) {opened : Bool} :
    t.isReadable p = .ok opened ↔ s.isReadable p = .ok opened := by
  rw [isReadable_eq_ok_iff, isReadable_eq_ok_iff, h]

/-- A new attribute is open, so a gate that is closed is that of an attribute that is there. -/
theorem isReadable_eq_false_iff :
    s.isReadable p = .ok false ↔ ((s.attribute? p).getD {}).readable = false := by
  rw [isReadable_eq_ok_iff]
  cases s.attribute? p <;> simp

theorem attribute?_shut (h : s.shut p = .ok t) (q : AttributePath) :
    t.attribute? q = if q = p then some ((s.attribute? p).getD {}).shut else s.attribute? q := by
  obtain ⟨a, ha, hshown⟩ := attribute?_edit h
  cases ha
  exact hshown q

theorem exists_shut {c : Cluster} (h : s.cluster p.node p.endpoint p.cluster = .ok c) :
    ∃ t, s.shut p = .ok t := ⟨_, shut_of_ok h⟩

theorem leaf_shut (h : s.shut p = .ok t) :
    t.leaf p = .ok ((s.leaf p).toOption.getD {}).shut ∧
      ∀ q ≠ p, ∀ a, t.leaf q = .ok a ↔ s.leaf q = .ok a := by
  have hleaf : (s.leaf p).toOption = s.attribute? p := by
    ext a
    rw [toOption_eq_some_iff, leaf_eq_ok_iff_eq_some]
  refine ⟨?_, fun q hq a => ?_⟩
  · rw [leaf_eq_ok_iff_eq_some, attribute?_shut h, if_pos rfl, hleaf]
  · rw [leaf_eq_ok_iff_eq_some, leaf_eq_ok_iff_eq_some, attribute?_shut h, if_neg hq]

/-- Readers see nothing behind a closed gate. -/
theorem read_of_isReadable_false (h : s.isReadable p = .ok false) (g : Generation) :
    s.read p g = .error (.unreadable p) := by
  obtain ⟨a, ha, hshut⟩ := isReadable_eq_ok_iff.mp h
  rw [read_of_leaf (leaf_eq_ok_iff_eq_some.mpr ha), hshut]

/-- Behind a closed gate writes move the values. -/
theorem write_of_isReadable_false (h : s.isReadable p = .ok false) {v : Element}
    (hwrite : s.write p v = .ok t) :
    ∃ old new, s.leaf p = .ok old ∧ t.leaf p = .ok new ∧ new.current = some v ∧
      new.previous = old.current ∧ new.readable = false := by
  obtain ⟨old, hold, hshut⟩ := isReadable_eq_ok_iff.mp h
  obtain ⟨new, hnew, hshown⟩ := attribute?_write (q := p) hwrite
  rw [hold, Option.getD_some] at hnew
  rw [if_pos rfl] at hshown
  have hshift := Attribute.eq_of_write hnew
  refine ⟨old, new, leaf_eq_ok_iff_eq_some.mpr hold, leaf_eq_ok_iff_eq_some.mpr hshown, ?_⟩
  rw [hshift]
  exact ⟨rfl, rfl, hshut⟩

theorem readable_of_written {v : Element} {a b : Attribute} (h : written p v a = .ok b) :
    b.readable = a.readable := by
  unfold written at h
  split at h
  · next hwrite =>
    cases h
    rw [Attribute.eq_of_write hwrite]
    rfl
  · cases h

end Store

namespace ReportEffect

variable {locator : Locator} {p : AttributePath} {status : Status} {raw : Option (List UInt8)}

theorem of?_of_closesGate (h : Bench.closesGate p status = true) :
    of? locator p status raw = some ⟨none, fun a => .ok a.shut, false⟩ := by
  have hstatus : status ≠ .success := by
    rintro rfl
    exact absurd h (by simp [Bench.closesGate, Status.success, Status.unsupportedRead,
      Status.unsupportedAccess, Status.failure])
  rw [of?, if_pos hstatus, if_pos h]

/-- Every other effect is that of a write. -/
theorem change_of_not_closesGate (h : ¬ Bench.closesGate p status = true) {x : ReportEffect}
    (hx : of? locator p status raw = some x) : ∃ v, x.change = Store.written p v := by
  unfold of? at hx
  by_cases hstatus : status ≠ .success
  · rw [if_pos hstatus, if_neg h] at hx
    cases hx
  · rw [if_neg hstatus] at hx
    simp only [Option.bind_eq_bind, Option.bind_eq_some_iff] at hx
    obtain ⟨-, -, -, -, v, -, hx⟩ := hx
    cases hx
    exact ⟨v, rfl⟩

end ReportEffect

namespace Bench

variable {b : Bench} {p q : AttributePath} {locator : Locator}

/-- A report that closes the gate of an attribute does nothing else to the store. -/
theorem store_receive_of_saysUnreadable {a : Arrival} (h : a.SaysUnreadable p) :
    (b.receive locator a).value.store = (b.store.shut p).toOption.getD b.store := by
  obtain ⟨status, raw, rfl, hstatus⟩ := h
  rw [value_receive]
  simp only [ReportEffect.of?_of_closesGate (closesGate_iff.mpr hstatus)]
  unfold reported Store.shut
  cases b.store.edit p none fun a => .ok a.shut <;> rfl

/-- No other arrival touches a gate. -/
theorem isReadable_receive_of_not {a : Arrival} (h : ¬ a.SaysUnreadable p) :
    (b.receive locator a).value.store.isReadable p = .ok false ↔
      b.store.isReadable p = .ok false := by
  rw [value_receive]
  cases a with
  | response | event | failure => rfl
  | report q status raw =>
    dsimp only
    cases hx : ReportEffect.of? locator q status raw with
    | none => rfl
    | some x =>
      change (b.reported q x).store.isReadable p = .ok false ↔ _
      cases hedit : b.store.edit q x.told x.change with
      | error fault => rw [reported_of_error b hedit]
      | ok t =>
        rw [reported_of_ok b hedit]
        obtain ⟨a, ha, hshown⟩ := Store.attribute?_edit hedit
        by_cases hp : p = q
        · subst hp
          have hcloses : ¬ closesGate p status = true := fun hcloses =>
            h (Arrival.saysUnreadable_report.mpr ⟨rfl, hcloses⟩)
          obtain ⟨v, hchange⟩ := ReportEffect.change_of_not_closesGate hcloses hx
          rw [hchange] at ha
          rw [Store.isReadable_eq_false_iff, Store.isReadable_eq_false_iff, hshown, if_pos rfl,
            Option.getD_some, Store.readable_of_written ha]
        · exact Store.isReadable_congr ((hshown p).trans (if_neg hp))

/-- One arrival leaves a gate closed if it was, or if it closes it, for which the cluster has to be
there. -/
theorem isReadable_receive_iff (a : Arrival) :
    (b.receive locator a).value.store.isReadable p = .ok false ↔
      b.store.isReadable p = .ok false ∨
        a.SaysUnreadable p ∧ ∃ c, b.store.cluster p.node p.endpoint p.cluster = .ok c := by
  by_cases hreport : a.SaysUnreadable p
  · rw [store_receive_of_saysUnreadable hreport]
    cases hcluster : b.store.cluster p.node p.endpoint p.cluster with
    | error fault => simp [Store.shut_of_error hcluster, Except.toOption]
    | ok c =>
      obtain ⟨t, ht⟩ := Store.exists_shut hcluster
      have hshown := Store.attribute?_shut ht p
      rw [if_pos rfl] at hshown
      rw [ht, Except.toOption, Option.getD_some, Store.isReadable_eq_false_iff, hshown]
      simp [hreport, Attribute.shut]
  · rw [isReadable_receive_of_not hreport]
    simp [hreport]

theorem isReadable_receiveAll (h : b.store.isReadable p = .ok false) (arrivals : List Arrival) :
    (b.receiveAll locator arrivals).store.isReadable p = .ok false := by
  induction arrivals generalizing b with
  | nil => exact h
  | cons a rest ih => exact ih ((isReadable_receive_iff a).mpr (.inl h))

theorem isReadable_receiveAll_iff (arrivals : List Arrival) :
    (b.receiveAll locator arrivals).store.isReadable p = .ok false ↔
      b.store.isReadable p = .ok false ∨ ∃ before a rest, arrivals = before ++ a :: rest ∧
        a.SaysUnreadable p ∧
        ∃ c, (b.receiveAll locator before).store.cluster p.node p.endpoint p.cluster = .ok c := by
  induction arrivals generalizing b with
  | nil => simp [receiveAll]
  | cons first arrivals ih =>
    refine (ih (b := (b.receive locator first).value)).trans ?_
    rw [isReadable_receive_iff, or_assoc]
    refine or_congr_right ?_
    -- what closes the gate is the first arrival or one of the rest
    constructor
    · rintro (⟨hreport, hcluster⟩ | ⟨before, a, rest, rfl, hreport, hcluster⟩)
      · exact ⟨[], first, arrivals, rfl, hreport, hcluster⟩
      · exact ⟨first :: before, a, rest, rfl, hreport, hcluster⟩
    · rintro ⟨before, a, rest, hsplit, hreport, hcluster⟩
      cases before with
      | nil =>
        cases hsplit
        exact .inl ⟨hreport, hcluster⟩
      | cons first' before =>
        cases hsplit
        exact .inr ⟨before, a, rest, rfl, hreport, hcluster⟩

/-- After any arrivals a gate is closed if it was closed before them, or if among them is a report
that says that the attribute cannot be read, and its cluster was there when that report came. Such a
report creates the attribute where it is absent and changes nothing but its gate. A gate that is
closed stays so whatever comes later, its values are hidden, and writes that are accepted move them.
-/
theorem gates_only_close (locator : Locator) (b : Bench) (arrivals : List Arrival)
    (p : AttributePath) :
    let after := b.receiveAll locator arrivals
    (after.store.isReadable p = .ok false ↔
      b.store.isReadable p = .ok false ∨ ∃ before a rest, arrivals = before ++ a :: rest ∧
        a.SaysUnreadable p ∧
        ∃ c, (b.receiveAll locator before).store.cluster p.node p.endpoint p.cluster = .ok c) ∧
    (∀ a, a.SaysUnreadable p →
      (∀ fault, after.store.cluster p.node p.endpoint p.cluster = .error fault →
        (after.receive locator a).value.store = after.store) ∧
      ∀ c, after.store.cluster p.node p.endpoint p.cluster = .ok c →
        (after.receive locator a).value.store.leaf p =
          .ok { (after.store.leaf p).toOption.getD {} with readable := false } ∧
        ∀ q ≠ p, ∀ x, (after.receive locator a).value.store.leaf q = .ok x ↔
          after.store.leaf q = .ok x) ∧
    (after.store.isReadable p = .ok false →
      (∀ later, (after.receiveAll locator later).store.isReadable p = .ok false) ∧
      (∀ g, after.store.read p g = .error (.unreadable p)) ∧
      ∀ v t, after.store.write p v = .ok t → ∃ old new, after.store.leaf p = .ok old ∧
        t.leaf p = .ok new ∧ new.current = some v ∧ new.previous = old.current ∧
        new.readable = false) := by
  intro after
  refine ⟨isReadable_receiveAll_iff arrivals, fun a hreport => ?_, fun hclosed => ?_⟩
  · rw [store_receive_of_saysUnreadable hreport]
    refine ⟨fun fault hfault => ?_, fun c hc => ?_⟩
    · rw [Store.shut_of_error hfault]
      rfl
    · obtain ⟨t, ht⟩ := Store.exists_shut hc
      rw [ht]
      exact Store.leaf_shut ht
  · exact ⟨isReadable_receiveAll hclosed, Store.read_of_isReadable_false hclosed,
      fun v t hwrite => Store.write_of_isReadable_false hclosed hwrite⟩

/-- A failure closes a gate of a cluster for tests and no other. A report that succeeds leaves it
closed, and both values have moved behind it. -/
theorem gates_only_close_testing :
    let p : AttributePath := ⟨1, 1, 0xFFF1FC00, 0⟩
    let q : AttributePath := ⟨1, 1, 0xFFF1FBFF, 0⟩
    let s := (Store.empty.putCluster 1 1 0xFFF1FC00 (.new 4)).putCluster 1 1 0xFFF1FBFF (.new 4)
    let b : Bench := ⟨s, .new 2, .new 3⟩
    let arrivals : List Arrival :=
      [.report p .success (some [0x09]), .report p .failure none, .report p .failure none,
        .report q .failure none, .report p .success (some [0x08])]
    let after := b.receiveAll .whole arrivals
    after.store.isReadable p = .ok false ∧ ¬ after.store.isReadable q = .ok false ∧
      (∀ later, (after.receiveAll .whole later).store.isReadable p = .ok false) ∧
      (after.store.leaf p).toOption.map (fun a => (a.current, a.previous)) =
        some (some (.bool false), some (.bool true)) := by
  intro p q s b arrivals after
  obtain ⟨hclosed, -, hkept⟩ := gates_only_close .whole b arrivals p
  have hfailure : (Arrival.report p .failure none).SaysUnreadable p :=
    ⟨.failure, none, rfl, .inr ⟨.inr rfl, by decide⟩⟩
  have hp : after.store.isReadable p = .ok false :=
    hclosed.mpr (.inr ⟨[.report p .success (some [0x09])], _, _, rfl, hfailure, _, rfl⟩)
  exact ⟨hp, by decide, (hkept hp).1, by decide⟩

end Bench

end DeviceTrial
