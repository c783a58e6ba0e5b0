import DeviceTrial.Proofs.Fallible
import DeviceTrial.SortedMap

namespace DeviceTrial

namespace SortedMap

variable {κ α β γ σ ε : Type} [Ranked κ]

theorem lookup_eq_none {k : κ} {es : List (κ × α)} (h : ∀ e ∈ es, rank k < rank e.1) :
    lookup k es = none := by
  induction es with
  | nil => rfl
  | cons e es ih =>
    have hlt : rank k < rank e.1 := h e (List.mem_cons_self ..)
    rw [lookup, if_neg (Nat.ne_of_lt hlt)]
    exact ih fun f hf => h f (List.mem_cons_of_mem _ hf)

theorem lookup_cons_self (e : κ × α) (es : List (κ × α)) :
    lookup e.1 (e :: es) = some e.2 := if_pos rfl

/-- Of two lists that answer alike neither starts later than the other. -/
theorem not_rank_lt_of_lookup {e f : κ × α} {es fs : List (κ × α)}
    (hfs : ∀ g ∈ fs, rank f.1 < rank g.1)
    (h : ∀ k, lookup k (e :: es) = lookup k (f :: fs)) : ¬ rank e.1 < rank f.1 := by
  intro hlt
  have hnone : lookup e.1 (f :: fs) = none := by
    refine lookup_eq_none fun g hg => ?_
    rcases List.mem_cons.mp hg with rfl | hg
    · exact hlt
    · exact Nat.lt_trans hlt (hfs g hg)
  have hsome := h e.1
  rw [lookup_cons_self, hnone] at hsome
  cases hsome

theorem entries_ext {es fs : List (κ × α)} (hes : es.Pairwise fun a b => rank a.1 < rank b.1)
    (hfs : fs.Pairwise fun a b => rank a.1 < rank b.1) (h : ∀ k, lookup k es = lookup k fs) :
    es = fs := by
  induction es generalizing fs with
  | nil =>
    cases fs with
    | nil => rfl
    | cons f fs =>
      have hf := h f.1
      rw [lookup_cons_self] at hf
      cases hf
  | cons e es ih =>
    cases fs with
    | nil =>
      have he := h e.1
      rw [lookup_cons_self] at he
      cases he
    | cons f fs =>
      obtain ⟨he, hes⟩ := List.pairwise_cons.mp hes
      obtain ⟨hf, hfs⟩ := List.pairwise_cons.mp hfs
      -- neither list starts before the other, so they start with one key
      have hle := not_rank_lt_of_lookup hf h
      have hge := not_rank_lt_of_lookup he fun k => (h k).symm
      have hkey : e.1 = f.1 := rank_inj (by omega)
      have hvalue : e.2 = f.2 := by
        have heq := h e.1
        rw [lookup_cons_self, hkey, lookup_cons_self] at heq
        exact Option.some.inj heq
      -- behind the heads both lists hold larger keys only
      have htail : ∀ k, lookup k es = lookup k fs := by
        intro k
        by_cases hk : rank k = rank e.1
        · rw [lookup_eq_none fun g hg => hk ▸ he g hg,
            lookup_eq_none fun g hg => (hk.trans (congrArg rank hkey)) ▸ hf g hg]
        · have hrest := h k
          rw [lookup, lookup, if_neg hk, if_neg (hkey ▸ hk)] at hrest
          exact hrest
      rw [ih hes hfs htail, Prod.ext hkey hvalue]

theorem lookup_map (f : κ → α → β) (k : κ) (es : List (κ × α)) :
    lookup k (es.map fun e => (e.1, f e.1 e.2)) = (lookup k es).map (f k) := by
  induction es with
  | nil => rfl
  | cons e es ih =>
    rw [List.map_cons, lookup, lookup]
    by_cases hk : rank k = rank e.1
    · rw [if_pos hk, if_pos hk, rank_inj hk]
      rfl
    · rw [if_neg hk, if_neg hk]
      exact ih

theorem lookup_filter_ne (j k : κ) (es : List (κ × α)) :
    lookup j (es.filter fun e => rank e.1 != rank k) =
      if rank j = rank k then none else lookup j es := by
  induction es with
  | nil => simp [lookup]
  | cons e es ih =>
    rw [List.filter_cons]
    by_cases he : rank e.1 = rank k
    · rw [if_neg (by simp [he]), ih, lookup, he]
      split <;> rfl
    · rw [if_pos (by simp [he]), lookup, ih, lookup]
      by_cases hj : rank j = rank e.1
      · rw [if_pos hj, if_pos hj, if_neg (hj ▸ he)]
      · rw [if_neg hj, if_neg hj]

theorem ext_get? {m n : SortedMap κ α} (h : ∀ k, m.get? k = n.get? k) : m = n := by
  obtain ⟨es, hes⟩ := m
  obtain ⟨fs, hfs⟩ := n
  have heq : es = fs := entries_ext hes hfs h
  subst heq
  rfl

theorem get?_of_mem {m : SortedMap κ α} {e : κ × α} (h : e ∈ m.entries) :
    m.get? e.1 = some e.2 := by
  obtain ⟨es, hes⟩ := m
  change e ∈ es at h
  change lookup e.1 es = some e.2
  induction es with
  | nil => cases h
  | cons f es ih =>
    obtain ⟨hf, hes⟩ := List.pairwise_cons.mp hes
    rcases List.mem_cons.mp h with rfl | h
    · exact lookup_cons_self e es
    · rw [lookup, if_neg (Nat.ne_of_gt (hf e h))]
      exact ih hes h

theorem mem_of_get? {m : SortedMap κ α} {k : κ} {a : α} (h : m.get? k = some a) :
    (k, a) ∈ m.entries := by
  obtain ⟨es, hes⟩ := m
  change lookup k es = some a at h
  change (k, a) ∈ es
  clear hes
  induction es with
  | nil => cases h
  | cons e es ih =>
    rw [lookup] at h
    by_cases hk : rank k = rank e.1
    · rw [if_pos hk] at h
      rw [rank_inj hk, ← Option.some.inj h]
      exact List.mem_cons_self
    · rw [if_neg hk] at h
      exact List.mem_cons_of_mem _ (ih h)

theorem mem_keys {m : SortedMap κ α} {k : κ} : k ∈ m.keys ↔ m.contains k = true := by
  rw [keys, List.mem_map, contains, Option.isSome_iff_exists]
  constructor
  · rintro ⟨e, he, rfl⟩
    exact ⟨e.2, get?_of_mem he⟩
  · rintro ⟨a, ha⟩
    exact ⟨(k, a), mem_of_get? ha, rfl⟩

theorem ascending_keys (m : SortedMap κ α) : m.keys.Pairwise fun a b => rank a < rank b :=
  List.pairwise_map.mpr m.ascending

theorem nodup_keys (m : SortedMap κ α) : m.keys.Nodup :=
  m.ascending_keys.imp fun hlt heq => Nat.ne_of_lt hlt (congrArg rank heq)

theorem insert_of_get? {m : SortedMap κ α} {k : κ} {v : α} (h : m.get? k = some v) :
    m.insert k v = m := by
  refine ext_get? fun j => ?_
  rw [get?_insert]
  split
  · next hj => rw [rank_inj hj, h]
  · rfl

theorem insert_insert (m : SortedMap κ α) (k : κ) (v w : α) :
    (m.insert k v).insert k w = m.insert k w := by
  refine ext_get? fun j => ?_
  rw [get?_insert, get?_insert, get?_insert]
  split <;> rfl

theorem insert_comm (m : SortedMap κ α) {j k : κ} (v w : α) (h : j ≠ k) :
    (m.insert j v).insert k w = (m.insert k w).insert j v := by
  refine ext_get? fun i => ?_
  rw [get?_insert, get?_insert, get?_insert, get?_insert]
  by_cases hj : rank i = rank j
  · have hk : ¬ rank i = rank k := fun hk => h (rank_inj (hj.symm.trans hk))
    rw [if_neg hk, if_pos hj, if_pos hj]
  · rw [if_neg hj, if_neg hj]

theorem insertNew_eq_insert (m : SortedMap κ α) (k : κ) (v : α) :
    m.insertNew k v = m.insert k ((m.get? k).getD v) := by
  refine ext_get? fun j => ?_
  cases hget : m.get? k with
  | none => rw [insertNew, contains, hget]; rfl
  | some w =>
    rw [insertNew_of_contains m v (by rw [contains, hget]; rfl), get?_insert]
    by_cases hj : rank j = rank k
    · rw [if_pos hj, rank_inj hj, hget]
      rfl
    · rw [if_neg hj]

theorem get?_union (m n : SortedMap κ α) (k : κ) :
    (m.union n).get? k = (n.get? k).or (m.get? k) := by
  obtain ⟨es, hes⟩ := n
  change (es.foldl (fun m e => m.insert e.1 e.2) m).get? k = (lookup k es).or (m.get? k)
  induction es generalizing m with
  | nil => rfl
  | cons e es ih =>
    -- no later entry has the key of the first, so the first is not overwritten
    obtain ⟨he, hes⟩ := List.pairwise_cons.mp hes
    rw [List.foldl_cons, ih _ hes, get?_insert, lookup]
    by_cases hk : rank k = rank e.1
    · rw [if_pos hk, if_pos hk, lookup_eq_none fun f hf => hk ▸ he f hf]
      rfl
    · rw [if_neg hk, if_neg hk]

theorem contains_insert (m : SortedMap κ α) (k j : κ) (v : α) :
    (m.insert k v).contains j = true ↔ j = k ∨ m.contains j = true := by
  rw [contains, get?_insert]
  by_cases hj : rank j = rank k
  · simp [rank_inj hj]
  · have hne : j ≠ k := fun h => hj (congrArg rank h)
    simp [hj, hne, contains]

theorem size_insert {m : SortedMap κ α} {k : κ} (h : m.contains k = false) (v : α) :
    (m.insert k v).size = m.size + 1 := by
  have hput (es : List (κ × α)) (hnone : lookup k es = none) :
      (put k v es).length = es.length + 1 := by
    induction es with
    | nil => rfl
    | cons e es ih =>
      rw [lookup] at hnone
      by_cases hk : rank k = rank e.1
      · rw [if_pos hk] at hnone
        cases hnone
      · rw [if_neg hk] at hnone
        rw [put, if_neg hk]
        split
        · rfl
        · exact congrArg (· + 1) (ih hnone)
  exact hput m.entries (Option.isNone_iff_eq_none.mp (Option.isSome_eq_false_iff.mp h))

theorem get?_erase (m : SortedMap κ α) (k j : κ) :
    (m.erase k).get? j = if rank j = rank k then none else m.get? j :=
  lookup_filter_ne j k m.entries

theorem contains_union (m n : SortedMap κ α) (k : κ) :
    (m.union n).contains k = true ↔ m.contains k = true ∨ n.contains k = true := by
  rw [contains, get?_union, contains, contains]
  cases n.get? k <;> simp

theorem modify_eq_ok_iff {m n : SortedMap κ α} {k : κ} {absent : ε} {f : α → Except ε α} :
    m.modify k absent f = .ok n ↔ ∃ a b, m.get? k = some a ∧ f a = .ok b ∧ n = m.insert k b := by
  unfold modify
  cases m.get? k with
  | none => simp
  | some a =>
    cases hf : f a with
    | error fault => simp [hf, Except.map]
    | ok b => simp [hf, Except.map, eq_comm]

theorem get?_mapValues (f : κ → α → β) (m : SortedMap κ α) (k : κ) :
    (m.mapValues f).get? k = (m.get? k).map (f k) :=
  lookup_map f k m.entries

theorem keys_mapValues (f : κ → α → β) (m : SortedMap κ α) : (m.mapValues f).keys = m.keys := by
  unfold keys mapValues
  rw [List.map_map]
  rfl

theorem keys_insert_of_contains {m : SortedMap κ α} {k : κ} (h : m.contains k = true) (v : α) :
    (m.insert k v).keys = m.keys := by
  have hsame : (m.insert k v).mapValues (fun _ _ => ()) = m.mapValues fun _ _ => () := by
    refine ext_get? fun j => ?_
    rw [get?_mapValues, get?_mapValues, get?_insert]
    by_cases hj : rank j = rank k
    · obtain ⟨w, hw⟩ := Option.isSome_iff_exists.mp h
      rw [if_pos hj, rank_inj hj, hw]
      rfl
    · rw [if_neg hj]
  rw [← keys_mapValues (fun _ _ => ()), hsame, keys_mapValues]

theorem mapValues_mapValues (f : κ → α → β) (g : κ → β → γ) (m : SortedMap κ α) :
    (m.mapValues f).mapValues g = m.mapValues fun k a => g k (f k a) := by
  refine ext_get? fun k => ?_
  rw [get?_mapValues, get?_mapValues, get?_mapValues, Option.map_map]
  rfl

theorem mapValues_congr {f g : κ → α → β} {m : SortedMap κ α}
    (h : ∀ k a, m.get? k = some a → f k a = g k a) : m.mapValues f = m.mapValues g := by
  refine ext_get? fun k => ?_
  rw [get?_mapValues, get?_mapValues]
  exact Option.map_congr (h k)

theorem empty_union (m : SortedMap κ α) : empty.union m = m := by
  refine ext_get? fun k => ?_
  rw [get?_union, get?_empty, Option.or_none]

theorem isEmpty_insert (m : SortedMap κ α) (k : κ) (v : α) : (m.insert k v).isEmpty = false := by
  obtain ⟨entries, _⟩ := m
  cases entries with
  | nil => rfl
  | cons e es =>
    change (put k v (e :: es)).isEmpty = false
    unfold put
    split
    · rfl
    · split <;> rfl

theorem isEmpty_union (m n : SortedMap κ α) :
    (m.union n).isEmpty = (m.isEmpty && n.isEmpty) := by
  obtain ⟨entries, ascending⟩ := n
  change (entries.foldl (fun m e => m.insert e.1 e.2) m).isEmpty = (m.isEmpty && entries.isEmpty)
  clear ascending
  induction entries generalizing m with
  | nil => simp
  | cons e es ih =>
    rw [List.foldl_cons, ih, isEmpty_insert]
    simp

/-- A pass over the entries of a map that takes each of them, from a state that holds the empty map
to one that holds the values after a change. -/
theorem foldlM_mapValues (step : σ → κ × α → Except ε σ) (f : κ → α → β)
    (holds : SortedMap κ β → σ → Prop)
    (hstep : ∀ m s k a, holds m s → m.get? k = none →
      ∃ t, step s (k, a) = .ok t ∧ holds (m.insert k (f k a)) t)
    (m : SortedMap κ α) {s : σ} (hs : holds .empty s) :
    ∃ t, m.entries.foldlM step s = .ok t ∧ holds (m.mapValues f) t := by
  -- what is held after the entries `es` is what was held before with these entries inserted
  have hfold (es : List (κ × α)) (hes : es.Pairwise fun a b => rank a.1 < rank b.1) :
      ∀ n s, (∀ e ∈ es, n.get? e.1 = none) → holds n s →
        ∃ t, es.foldlM step s = .ok t ∧
          holds (es.foldl (fun n e => n.insert e.1 (f e.1 e.2)) n) t := by
    induction es with
    | nil => exact fun n s _ hs => ⟨s, rfl, hs⟩
    | cons e es ih =>
      intro n s hnew hs
      obtain ⟨he, hes⟩ := List.pairwise_cons.mp hes
      obtain ⟨t, ht, hheld⟩ := hstep n s e.1 e.2 hs (hnew e (List.mem_cons_self ..))
      have hnew' : ∀ g ∈ es, (n.insert e.1 (f e.1 e.2)).get? g.1 = none := by
        intro g hg
        have hne : g.1 ≠ e.1 := fun h => Nat.ne_of_lt (he g hg) (congrArg rank h.symm)
        rw [get?_insert_of_ne _ _ hne]
        exact hnew g (List.mem_cons_of_mem _ hg)
      obtain ⟨u, hu, hheld⟩ := ih hes _ t hnew' hheld
      refine ⟨u, ?_, hheld⟩
      rw [List.foldlM_cons]
      exact bind_eq_ok_iff.mpr ⟨t, ht, hu⟩
  obtain ⟨t, ht, hheld⟩ := hfold m.entries m.ascending .empty s (fun _ _ => rfl) hs
  refine ⟨t, ht, ?_⟩
  rw [← empty_union (m.mapValues f), union, mapValues, List.foldl_map]
  exact hheld

end SortedMap

namespace SortedSet

variable {κ : Type} [Ranked κ]

theorem contains_ofList {k : κ} {ks : List κ} :
    SortedMap.contains (ofList ks) k = true ↔ k ∈ ks := by
  have hfold (m : SortedSet κ) :
      ((ks.map (·, ())).foldl (fun m e => m.insert e.1 e.2) m).contains k = true ↔
        m.contains k = true ∨ k ∈ ks := by
    induction ks generalizing m with
    | nil => simp
    | cons j ks ih =>
      rw [List.map_cons, List.foldl_cons, ih, SortedMap.contains_insert, List.mem_cons, or_assoc,
        or_left_comm]
  refine (hfold .empty).trans ?_
  simp [SortedMap.contains]

theorem union_right_comm (s t u : SortedSet κ) :
    (SortedMap.union s t).union u = (SortedMap.union s u).union t := by
  refine SortedMap.ext_get? fun k => ?_
  rw [SortedMap.get?_union, SortedMap.get?_union, SortedMap.get?_union, SortedMap.get?_union]
  cases t.get? k <;> cases u.get? k <;> rfl

end SortedSet

end DeviceTrial
