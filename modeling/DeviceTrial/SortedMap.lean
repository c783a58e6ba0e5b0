namespace DeviceTrial

/-- A type whose values are told apart, and put in order, by a natural number. -/
class Ranked (κ : Type) where
  rank : κ → Nat
  rank_inj : ∀ {a b : κ}, rank a = rank b → a = b

export Ranked (rank rank_inj)

instance : Ranked Nat := ⟨id, id⟩
instance : Ranked UInt16 := ⟨UInt16.toNat, fun h => UInt16.toNat_inj.mp h⟩
instance : Ranked UInt32 := ⟨UInt32.toNat, fun h => UInt32.toNat_inj.mp h⟩
instance : Ranked UInt64 := ⟨UInt64.toNat, fun h => UInt64.toNat_inj.mp h⟩

structure SortedMap (κ α : Type) [Ranked κ] where
  entries : List (κ × α)
  ascending : entries.Pairwise fun a b => rank a.1 < rank b.1

namespace SortedMap

variable {κ α β : Type} [Ranked κ]

def lookup (k : κ) : List (κ × α) → Option α
  | [] => none
  | e :: es => if rank k = rank e.1 then some e.2 else lookup k es

/-- Puts an entry at its place, in place of the one with the same key. -/
def put (k : κ) (v : α) : List (κ × α) → List (κ × α)
  | [] => [(k, v)]
  | e :: es =>
    if rank k < rank e.1 then (k, v) :: e :: es
    else if rank k = rank e.1 then (k, v) :: es
    else e :: put k v es

theorem mem_put {k : κ} {v : α} {a : κ × α} {es : List (κ × α)} (h : a ∈ put k v es) :
    a = (k, v) ∨ a ∈ es := by
  induction es with
  | nil => simpa [put] using h
  | cons e es ih => grind [put]

theorem ascending_put (k : κ) (v : α) {es : List (κ × α)}
    (h : es.Pairwise fun a b => rank a.1 < rank b.1) :
    (put k v es).Pairwise fun a b => rank a.1 < rank b.1 := by
  induction es with
  | nil => simp [put]
  | cons e es ih =>
    obtain ⟨he, hs⟩ := List.pairwise_cons.mp h
    unfold put
    split
    · rename_i hlt
      refine List.pairwise_cons.mpr ⟨fun a ha => ?_, h⟩
      rcases List.mem_cons.mp ha with rfl | ha
      · exact hlt
      · exact Nat.lt_trans hlt (he a ha)
    · split
      · rename_i heq
        exact List.pairwise_cons.mpr ⟨fun a ha => by simpa [heq] using he a ha, hs⟩
      · refine List.pairwise_cons.mpr ⟨fun a ha => ?_, ih hs⟩
        rcases mem_put ha with rfl | ha
        · simp only; omega
        · exact he a ha

theorem lookup_put (k j : κ) (v : α) (es : List (κ × α)) :
    lookup j (put k v es) = if rank j = rank k then some v else lookup j es := by
  induction es with
  | nil => simp [put, lookup]
  | cons e es ih => grind [put, lookup]

def empty : SortedMap κ α := ⟨[], List.Pairwise.nil⟩

instance : Inhabited (SortedMap κ α) := ⟨empty⟩

def get? (m : SortedMap κ α) (k : κ) : Option α := lookup k m.entries

def contains (m : SortedMap κ α) (k : κ) : Bool := (m.get? k).isSome

def insert (m : SortedMap κ α) (k : κ) (v : α) : SortedMap κ α :=
  ⟨put k v m.entries, ascending_put k v m.ascending⟩

def insertNew (m : SortedMap κ α) (k : κ) (v : α) : SortedMap κ α :=
  if m.contains k then m else m.insert k v

def erase (m : SortedMap κ α) (k : κ) : SortedMap κ α :=
  ⟨m.entries.filter fun e => rank e.1 != rank k, m.ascending.filter _⟩

def keys (m : SortedMap κ α) : List κ := m.entries.map (·.1)

def size (m : SortedMap κ α) : Nat := m.entries.length

def isEmpty (m : SortedMap κ α) : Bool := m.entries.isEmpty

def mapValues (f : κ → α → β) (m : SortedMap κ α) : SortedMap κ β :=
  ⟨m.entries.map fun e => (e.1, f e.1 e.2), m.ascending.map _ fun _ _ h => h⟩

def total (f : α → Nat) (m : SortedMap κ α) : Nat := m.entries.foldr (fun e n => f e.2 + n) 0

/-- The entries in the order given; of two with one key the later counts. -/
def ofList (es : List (κ × α)) : SortedMap κ α := es.foldl (fun m e => m.insert e.1 e.2) empty

def union (m n : SortedMap κ α) : SortedMap κ α := n.entries.foldl (fun m e => m.insert e.1 e.2) m

/-- Changes the value of a key by a function that may refuse it. An absent key is a fault of its
own. -/
def modify {ε : Type} (m : SortedMap κ α) (k : κ) (absent : ε) (f : α → Except ε α) :
    Except ε (SortedMap κ α) :=
  match m.get? k with
  | none => .error absent
  | some a => (f a).map (m.insert k)

def agree (same : α → α → Bool) (m n : SortedMap κ α) : Bool :=
  m.size == n.size &&
    (m.entries.zip n.entries).all fun (a, b) => rank a.1 == rank b.1 && same a.2 b.2

@[simp] theorem get?_empty (k : κ) : (empty : SortedMap κ α).get? k = none := rfl

theorem get?_insert (m : SortedMap κ α) (k j : κ) (v : α) :
    (m.insert k v).get? j = if rank j = rank k then some v else m.get? j :=
  lookup_put k j v m.entries

@[simp] theorem get?_insert_self (m : SortedMap κ α) (k : κ) (v : α) :
    (m.insert k v).get? k = some v := by
  simp [get?_insert]

theorem get?_insert_of_ne (m : SortedMap κ α) {k j : κ} (v : α) (h : j ≠ k) :
    (m.insert k v).get? j = m.get? j := by
  rw [get?_insert, if_neg fun hr => h (rank_inj hr)]

theorem insertNew_of_contains (m : SortedMap κ α) {k : κ} (v : α) (h : m.contains k = true) :
    m.insertNew k v = m := by
  simp [insertNew, h]

end SortedMap

/-- A finite set listed in ascending order. -/
abbrev SortedSet (κ : Type) [Ranked κ] := SortedMap κ Unit

namespace SortedSet

variable {κ : Type} [Ranked κ]

def ofList (ks : List κ) : SortedSet κ := SortedMap.ofList (ks.map (·, ()))

def toList (s : SortedSet κ) : List κ := s.keys

end SortedSet

end DeviceTrial
