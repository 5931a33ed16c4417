/-!
# Finite maps in ascending key order

A `SortedMap` is the list of its bindings in strictly ascending key order, so that two maps with
the same bindings are the same value and iteration order is the order of the keys. Main
definitions: `insert`, `erase`, `get?`, `ofList` (a later binding replaces an earlier one of the
same key) and `keys`.
-/

namespace SignedDirectory

/-- A finite map, held as its bindings in strictly ascending key order. -/
structure SortedMap (κ α : Type) [Ord κ] where
  toList : List (κ × α)
  ascending : toList.Pairwise fun a b => compare a.1 b.1 = .lt

namespace SortedMap

variable {κ α : Type} [Ord κ]

/-- A map is determined by its bindings. -/
theorem ext {m m' : SortedMap κ α} (h : m.toList = m'.toList) : m = m' := by
  cases m; cases m'; cases h; rfl

instance [DecidableEq κ] [DecidableEq α] : DecidableEq (SortedMap κ α) := fun m m' =>
  decidable_of_iff (m.toList = m'.toList) ⟨ext, fun h => h ▸ rfl⟩

def empty : SortedMap κ α := ⟨[], .nil⟩

instance : EmptyCollection (SortedMap κ α) := ⟨empty⟩

instance : Inhabited (SortedMap κ α) := ⟨empty⟩

def size (m : SortedMap κ α) : Nat := m.toList.length

def isEmpty (m : SortedMap κ α) : Bool := m.toList.isEmpty

def keys (m : SortedMap κ α) : List κ := m.toList.map (·.1)

def find? (k : κ) : List (κ × α) → Option α
  | [] => none
  | (k', a) :: rest => if compare k k' = .eq then some a else find? k rest

def get? (m : SortedMap κ α) (k : κ) : Option α := find? k m.toList

def contains (m : SortedMap κ α) (k : κ) : Bool := (m.get? k).isSome

/-- Places `(k, a)` among ascending bindings, replacing the binding of an equal key. -/
def place (k : κ) (a : α) : List (κ × α) → List (κ × α)
  | [] => [(k, a)]
  | (k', a') :: rest =>
    match compare k k' with
    | .lt => (k, a) :: (k', a') :: rest
    | .eq => (k, a) :: rest
    | .gt => (k', a') :: place k a rest

theorem mem_place {k : κ} {a : α} {b : κ × α} {bindings : List (κ × α)}
    (h : b ∈ place k a bindings) : b = (k, a) ∨ b ∈ bindings := by
  induction bindings with
  | nil => exact .inl (by simpa [place] using h)
  | cons c rest ih =>
    obtain ⟨k', a'⟩ := c
    rw [place] at h
    split at h
    · simpa using h
    · rcases List.mem_cons.mp h with h | h
      · exact .inl h
      · exact .inr (List.mem_cons_of_mem _ h)
    · rcases List.mem_cons.mp h with h | h
      · exact .inr (h ▸ List.mem_cons_self)
      · exact (ih h).imp_right (List.mem_cons_of_mem _)

theorem place_ascending [Std.TransOrd κ] [Std.LawfulEqOrd κ] (k : κ) (a : α)
    {bindings : List (κ × α)} (h : bindings.Pairwise fun a b => compare a.1 b.1 = .lt) :
    (place k a bindings).Pairwise fun a b => compare a.1 b.1 = .lt := by
  induction bindings with
  | nil => exact List.pairwise_singleton _ _
  | cons c rest ih =>
    obtain ⟨k', a'⟩ := c
    obtain ⟨below, tail⟩ := List.pairwise_cons.mp h
    rw [place]
    split
    next hlt =>
      refine List.pairwise_cons.mpr ⟨fun b hb => ?_, h⟩
      rcases List.mem_cons.mp hb with rfl | hb
      · exact hlt
      · exact Std.TransCmp.lt_trans hlt (below b hb)
    next heq =>
      refine List.pairwise_cons.mpr ⟨fun b hb => ?_, tail⟩
      rw [Std.LawfulEqCmp.eq_of_compare heq]
      exact below b hb
    next hgt =>
      refine List.pairwise_cons.mpr ⟨fun b hb => ?_, ih tail⟩
      rcases mem_place hb with rfl | hb
      · exact Std.OrientedCmp.lt_of_gt hgt
      · exact below b hb

/-- Binds `k` to `a`, replacing what `k` was bound to. -/
def insert [Std.TransOrd κ] [Std.LawfulEqOrd κ] (m : SortedMap κ α) (k : κ) (a : α) :
    SortedMap κ α :=
  ⟨place k a m.toList, place_ascending k a m.ascending⟩

def erase (m : SortedMap κ α) (k : κ) : SortedMap κ α :=
  ⟨m.toList.filter fun b => compare k b.1 != .eq, m.ascending.filter _⟩

def map {β : Type} (f : α → β) (m : SortedMap κ α) : SortedMap κ β :=
  ⟨m.toList.map fun b => (b.1, f b.2), List.pairwise_map.mpr m.ascending⟩

@[simp] theorem get?_empty (k : κ) : (∅ : SortedMap κ α).get? k = none := rfl

section LawfulEq

variable [Std.LawfulEqOrd κ] [DecidableEq κ]

theorem find?_cons (k k' : κ) (a : α) (bindings : List (κ × α)) :
    find? k ((k', a) :: bindings) = if k = k' then some a else find? k bindings := by
  simp [find?]

theorem find?_place (k k' : κ) (a : α) (bindings : List (κ × α)) :
    find? k' (place k a bindings) = if k' = k then some a else find? k' bindings := by
  induction bindings with
  | nil => simp [place, find?]
  | cons b rest ih =>
    obtain ⟨k'', a'⟩ := b
    rw [place]
    split
    · rw [find?_cons]
    next heq =>
      obtain rfl := Std.LawfulEqCmp.eq_of_compare heq
      rw [find?_cons, find?_cons]
      split <;> rfl
    next hgt =>
      have hne : k ≠ k'' := fun h => by simp [h] at hgt
      rw [find?_cons, find?_cons, ih]
      by_cases h : k' = k <;> simp_all

theorem find?_filter (k k' : κ) (bindings : List (κ × α)) :
    find? k' (bindings.filter fun b => compare k b.1 != .eq) =
      if k' = k then none else find? k' bindings := by
  induction bindings with
  | nil => simp [find?]
  | cons b rest ih =>
    obtain ⟨k'', a'⟩ := b
    rw [List.filter_cons, find?_cons]
    split
    next h =>
      have hne : k ≠ k'' := by simpa using h
      rw [find?_cons, ih]
      by_cases h : k' = k <;> simp_all
    next h =>
      obtain rfl : k = k'' := by simpa using h
      rw [ih]
      split <;> rfl

theorem get?_erase (m : SortedMap κ α) (k k' : κ) :
    (m.erase k).get? k' = if k' = k then none else m.get? k' :=
  find?_filter k k' m.toList

/-- Binding a key changes what it is bound to, and nothing else. -/
theorem get?_insert [Std.TransOrd κ] (m : SortedMap κ α) (k k' : κ) (a : α) :
    (m.insert k a).get? k' = if k' = k then some a else m.get? k' :=
  find?_place k k' a m.toList

end LawfulEq

variable [Std.TransOrd κ] [Std.LawfulEqOrd κ]

/-- The map of a list of bindings: of several bindings of one key the last one counts. -/
def ofList (bindings : List (κ × α)) : SortedMap κ α :=
  bindings.foldl (fun m b => m.insert b.1 b.2) ∅

/-- All bindings of both maps; where both bind a key, the second one's binding counts. -/
def union (m m' : SortedMap κ α) : SortedMap κ α :=
  m'.toList.foldl (fun m b => m.insert b.1 b.2) m

end SortedMap

/-- A finite set, iterated in ascending order. -/
abbrev SortedSet (κ : Type) [Ord κ] := SortedMap κ Unit

namespace SortedSet

variable {κ : Type} [Ord κ] [Std.TransOrd κ] [Std.LawfulEqOrd κ]

def ofList (elements : List κ) : SortedSet κ :=
  SortedMap.ofList (elements.map fun k => (k, ()))

end SortedSet

end SignedDirectory
