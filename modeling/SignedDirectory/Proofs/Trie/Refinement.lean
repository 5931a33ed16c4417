import Mathlib.Data.Finmap
import SignedDirectory.Proofs.Success
import SignedDirectory.Proofs.Trie.Update

/-!
# Tries as finite maps

A history of insertions and removals leaves a finite map, and the trie that it builds stands for that
map: it is canonical, binds what the map binds and counts the keys of the map (`Trie.Represents`). One
change keeps this (`Represents.apply`), and so does every history (`exists_replay`). A canonical trie is
determined by its bindings, so histories build the same trie exactly if they leave the same map.
-/

namespace SignedDirectory

namespace Tree

/-! ## The nodes of a trie -/

/-- A subtree stands in a tree at a depth. -/
inductive Occurs (t : Tree) : Nat → Tree → Prop where
  | root : Occurs t 0 t
  | child {depth : Nat} {d : Digest} {zero one : Tree} (side : Bool) :
      Occurs t depth (.branch d zero one) → Occurs t (depth + 1) (child side zero one)

variable [HashFunction]

/-- The shape of a trie, read off its nodes. -/
structure WellFormed (t : Tree) : Prop where
  /-- A branch with an empty side has a branch on the other side. -/
  not_lone : ∀ {depth d zero one}, t.Occurs depth (.branch d zero one) → ∀ side,
    child side zero one = .empty →
      child (!side) zero one ≠ .empty ∧ ∀ k v, child (!side) zero one ≠ .leaf k v
  /-- Every key below a branch is on the side of its bit. -/
  bit_eq : ∀ {depth d zero one}, t.Occurs depth (.branch d zero one) →
    ∃ hDepth : depth < 512, ∀ side, ∀ b ∈ (child side zero one).bindings,
      b.1.bit ⟨depth, hDepth⟩ = side
  value_ne_empty : ∀ {depth k v}, t.Occurs depth (.leaf k v) → v ≠ .empty
  keys_nodup : (t.bindings.map (·.1)).Nodup
  digest_eq : ∀ {depth d zero one}, t.Occurs depth (.branch d zero one) →
    d = .combine zero.digest one.digest

namespace Canonical

theorem occurs {t s : Tree} {depth : Nat} (h : Canonical 0 t) (hOccurs : t.Occurs depth s) :
    Canonical depth s := by
  induction hOccurs with
  | root => exact h
  | child side _ ih => exact ih.child side

theorem not_lone {depth : Nat} {d : Digest} {zero one : Tree}
    (h : Canonical depth (.branch d zero one)) {side : Bool}
    (hEmpty : Tree.child side zero one = .empty) :
    Tree.child (!side) zero one ≠ .empty ∧ ∀ k v, Tree.child (!side) zero one ≠ .leaf k v := by
  cases h with
  | branch _ _ _ _ _ hShape =>
    -- Otherwise the two sides would not have merged into a branch.
    cases side with
    | false =>
      obtain rfl : zero = .empty := hEmpty
      constructor
      · rintro (rfl : one = .empty)
        cases hShape
      · rintro k v (rfl : one = .leaf k v)
        cases hShape
    | true =>
      obtain rfl : one = .empty := hEmpty
      constructor
      · rintro (rfl : zero = .empty)
        cases hShape
      · rintro k v (rfl : zero = .leaf k v)
        cases hShape

theorem keys_nodup {depth : Nat} {t : Tree} (h : Canonical depth t) :
    (t.bindings.map (·.1)).Nodup := by
  induction h with
  | empty => exact List.nodup_nil
  | leaf => exact List.nodup_singleton _
  | branch _ _ _ hZeroBit hOneBit _ ihZero ihOne =>
    rw [bindings, List.map_append]
    refine List.nodup_append.mpr ⟨ihZero, ihOne, ?_⟩
    intro a ha b hb hKey
    obtain ⟨p, hp, rfl⟩ := List.mem_map.mp ha
    obtain ⟨q, hq, rfl⟩ := List.mem_map.mp hb
    have hBit := hOneBit q hq
    rw [← hKey, hZeroBit p hp] at hBit
    cases hBit

theorem wellFormed {t : Tree} (h : Canonical 0 t) : t.WellFormed where
  not_lone hOccurs _ hEmpty := (h.occurs hOccurs).not_lone hEmpty
  bit_eq hOccurs := by
    have hBranch := h.occurs hOccurs
    exact ⟨hBranch.depth_lt, fun side b hb =>
      ((hBranch.mem_child_bindings hBranch.depth_lt side b).mp hb).2⟩
  value_ne_empty hOccurs := by
    cases h.occurs hOccurs
    assumption
  keys_nodup := h.keys_nodup
  digest_eq hOccurs := by
    cases h.occurs hOccurs
    rfl

end Canonical

end Tree

namespace Trie

/-! ## Histories -/

abbrev Bindings := Finmap fun _ : Digest => Digest

inductive Change where
  | insert (key value : Digest)
  | remove (key : Digest)

/-- What a change makes of a finite map. Inserting the empty value removes the key. -/
def Change.onMap (m : Bindings) : Change → Bindings
  | .insert key value => if value = .empty then m.erase key else m.insert key value
  | .remove key => m.erase key

/-- The finite map that a history leaves. -/
def finalMap (history : List Change) : Bindings := history.foldl Change.onMap ∅

variable [HashFunction]

def Change.apply (t : Trie) : Change → Except PathError Trie
  | .insert key value => t.insert key value
  | .remove key => t.remove key

/-- The trie that a history builds. -/
def replay (history : List Change) : Except PathError Trie := history.foldlM Change.apply ∅

/-! ## Tries that stand for finite maps -/

/-- A canonical trie that binds what a finite map binds and counts the keys of the map. -/
structure Represents (t : Trie) (m : Bindings) : Prop where
  canonical : t.tree.Canonical 0
  mem_iff : ∀ key value, (key, value) ∈ t.tree.bindings ↔ m.lookup key = some value
  size_eq : t.size = m.keys.card

namespace Represents

theorem empty : Represents ∅ ∅ where
  canonical := .empty
  mem_iff key value := by
    rw [Finmap.lookup_empty]
    exact ⟨fun h => absurd h List.not_mem_nil, fun h => absurd h (by simp)⟩
  size_eq := rfl

variable {t t' : Trie} {m m' : Bindings}

theorem exists_lookup (h : Represents t m) (key : Digest) :
    ∃ path, t.lookup key = .ok (path, m.lookup key) := Trie.exists_lookup h.canonical (h.mem_iff key)

/-- A finite map has one trie. -/
theorem eq (h : Represents t m) (h' : Represents t' m) : t = t' := by
  have hTree : t.tree = t'.tree := by
    apply h.canonical.eq_of_mem_iff h'.canonical
    rintro ⟨key, value⟩
    exact (h.mem_iff key value).trans (h'.mem_iff key value).symm
  have hSize : t.size = t'.size := h.size_eq.trans h'.size_eq.symm
  cases t
  cases t'
  cases hTree
  cases hSize
  rfl

/-- A trie stands for one finite map. -/
theorem map_eq (h : Represents t m) (h' : Represents t m') : m = m' := by
  apply Finmap.ext_lookup
  intro key
  apply Option.ext
  intro value
  exact (h.mem_iff key value).symm.trans (h'.mem_iff key value)

end Represents

/-! ## One change -/

/-- The number of keys when one of them has had a value, or none, and is given another, or none. -/
def resized (size : Nat) : Option Digest → Option Digest → Nat
  | none, some _ => size + 1
  | some _, none => size - 1
  | _, _ => size

theorem size_of_insert {t next : Trie} {key value : Digest} {path : AuditPath}
    {found : Option Digest} (hLookup : t.lookup key = .ok (path, found))
    (hInsert : t.insert key value = .ok next) :
    next.size = resized t.size found (stored value) := by
  rw [insert, hLookup] at hInsert
  obtain ⟨⟨_, _⟩, hFound, hInsert⟩ := bind_eq_ok_iff.mp hInsert
  cases hFound
  obtain ⟨tree, -, hNext⟩ := bind_eq_ok_iff.mp hInsert
  cases hNext
  rfl

section

omit [HashFunction]

theorem lookup_onMap_insert (m : Bindings) (key value k : Digest) :
    ((Change.insert key value).onMap m).lookup k = if k = key then stored value else m.lookup k := by
  rw [Change.onMap, stored]
  by_cases hKey : k = key
  · subst hKey
    split <;> simp
  · split <;> simp [hKey]

theorem keys_insert (m : Bindings) (key value : Digest) :
    (m.insert key value).keys = Insert.insert key m.keys := by
  ext k
  rw [Finmap.mem_keys, Finmap.mem_insert, Finset.mem_insert, Finmap.mem_keys]

theorem card_onMap_insert (m : Bindings) (key value : Digest) :
    ((Change.insert key value).onMap m).keys.card =
      resized m.keys.card (m.lookup key) (stored value) := by
  rw [Change.onMap, stored]
  cases hFound : m.lookup key with
  | none =>
    have hKey : key ∉ m.keys := fun h => Finmap.lookup_eq_none.mp hFound (Finmap.mem_keys.mp h)
    split
    · rw [Finmap.keys_erase, Finset.erase_eq_of_notMem hKey]
      rfl
    · rw [keys_insert, Finset.card_insert_of_notMem hKey]
      rfl
  | some found =>
    have hKey : key ∈ m.keys := Finmap.mem_keys.mpr (Finmap.mem_of_lookup_eq_some hFound)
    split
    · rw [Finmap.keys_erase, Finset.card_erase_of_mem hKey]
      rfl
    · rw [keys_insert, Finset.insert_eq_of_mem hKey]
      rfl

end

namespace Represents

theorem insert {t : Trie} {m : Bindings} (h : Represents t m) (key value : Digest) :
    ∃ next, t.insert key value = .ok next ∧ Represents next ((Change.insert key value).onMap m) := by
  obtain ⟨next, hInsert, -, hUpdated⟩ := insert_of_canonical h.canonical key value
  obtain ⟨path, hLookup⟩ := h.exists_lookup key
  refine ⟨next, hInsert, hUpdated.canonical, fun k v => ?_, ?_⟩
  · rw [hUpdated.mem_iff, lookup_onMap_insert, h.mem_iff]
    by_cases hKey : k = key
    · simp [hKey]
    · simp [hKey]
  · rw [size_of_insert hLookup hInsert, card_onMap_insert, h.size_eq]

/-- A change succeeds, and makes of the trie what it makes of the map. -/
theorem apply {t : Trie} {m : Bindings} (h : Represents t m) (c : Change) :
    ∃ next, c.apply t = .ok next ∧ Represents next (c.onMap m) := by
  cases c with
  | insert key value => exact h.insert key value
  | remove key =>
    -- A removal is the insertion of the empty value.
    have hErase : (Change.insert key .empty).onMap m = m.erase key := by
      rw [Change.onMap, if_pos rfl]
    obtain ⟨next, hInsert, hNext⟩ := h.insert key .empty
    rw [hErase] at hNext
    exact ⟨next, hInsert, hNext⟩

end Represents

/-! ## Whole histories -/

theorem replay_append (history : List Change) (c : Change) :
    replay (history ++ [c]) = replay history >>= fun t => c.apply t := by
  simp [replay]

theorem exists_replay (history : List Change) :
    ∃ t, replay history = .ok t ∧ Represents t (finalMap history) := by
  induction history using List.reverseRecOn with
  | nil => exact ⟨∅, rfl, .empty⟩
  | append_singleton history c ih =>
    obtain ⟨t, hReplay, h⟩ := ih
    obtain ⟨next, hApply, hNext⟩ := h.apply c
    refine ⟨next, ?_, ?_⟩
    · rw [replay_append, hReplay]
      exact hApply
    · rw [finalMap, List.foldl_append]
      exact hNext

/-- The reachable tries are those that histories build. -/
theorem reachable_iff {t : Trie} : t.Reachable ↔ ∃ history, replay history = .ok t := by
  constructor
  · intro h
    induction h with
    | empty => exact ⟨[], rfl⟩
    | @insert t next key value _ hInsert ih =>
      obtain ⟨history, hReplay⟩ := ih
      refine ⟨history ++ [.insert key value], ?_⟩
      rw [replay_append, hReplay]
      exact hInsert
    | @remove t next key _ hRemove ih =>
      obtain ⟨history, hReplay⟩ := ih
      refine ⟨history ++ [.remove key], ?_⟩
      rw [replay_append, hReplay]
      exact hRemove
  · rintro ⟨history, hReplay⟩
    induction history using List.reverseRecOn generalizing t with
    | nil =>
      cases hReplay
      exact .empty
    | append_singleton history c ih =>
      rw [replay_append] at hReplay
      obtain ⟨before, hBefore, hApply⟩ := bind_eq_ok_iff.mp hReplay
      cases c with
      | insert key value => exact .insert (ih hBefore) hApply
      | remove key => exact .remove (ih hBefore) hApply

/-- The trie of a history is the finite map that the history leaves: lookups find what the map binds,
the size is that of the map, and the nodes have the shape that makes it canonical. -/
theorem replay_refines (history : List Change) :
    ∃ t, replay history = .ok t ∧
      (∀ key, ∃ path, t.lookup key = .ok (path, (finalMap history).lookup key)) ∧
      t.size = (finalMap history).keys.card ∧
      (t.isEmpty = true ↔ finalMap history = ∅) ∧
      t.tree.WellFormed := by
  obtain ⟨t, hReplay, h⟩ := exists_replay history
  refine ⟨t, hReplay, h.exists_lookup, h.size_eq, ?_, h.canonical.wellFormed⟩
  rw [isEmpty, decide_eq_true_iff, h.size_eq, Finset.card_eq_zero]
  constructor
  · intro hKeys
    apply Finmap.ext_lookup
    intro key
    rw [Finmap.lookup_empty, Finmap.lookup_eq_none, ← Finmap.mem_keys, hKeys]
    exact Finset.notMem_empty key
  · intro hMap
    rw [hMap, Finmap.keys_empty]

/-- Histories build the same trie, down to its digests and audit paths, exactly if they leave the same
finite map. -/
theorem replay_eq_iff (history history' : List Change) :
    ∃ t t', replay history = .ok t ∧ replay history' = .ok t' ∧
      (t = t' ↔ finalMap history = finalMap history') := by
  obtain ⟨t, hReplay, h⟩ := exists_replay history
  obtain ⟨t', hReplay', h'⟩ := exists_replay history'
  refine ⟨t, t', hReplay, hReplay', ?_, ?_⟩
  · rintro rfl
    exact h.map_eq h'
  · intro hMap
    rw [hMap] at h
    exact h.eq h'

end Trie

end SignedDirectory
