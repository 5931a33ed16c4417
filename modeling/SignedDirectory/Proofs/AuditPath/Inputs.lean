import SignedDirectory.Proofs.Trie.Update

/-!
# What tries and folds hash

Every digest of a node and of a fold is the hash of two digests, 128 bytes. This module lists these
inputs and states what is assumed of the hash function on them: no two of them have the same digest,
and none has the empty one (`Collisionless`). A digest that none of them has is `Fresh`; keys and values
are, so that no node can pass for one.
-/

namespace SignedDirectory

namespace Digest

variable [HashFunction]

/-- The digest of 128 bytes, given by their two halves. -/
def ofPair (p : Digest × Digest) : Digest := ofData (p.1.toBytes ++ p.2.toBytes)

/-- What combining two digests hashes. -/
def hashed (a b : Digest) : List (Digest × Digest) := if a = empty ∧ b = empty then [] else [(a, b)]

/-- No two inputs have the same digest, and no input has the empty digest. -/
structure Collisionless (inputs : List (Digest × Digest)) : Prop where
  injective : ∀ p ∈ inputs, ∀ q ∈ inputs, ofPair p = ofPair q → p = q
  nonempty : ∀ p ∈ inputs, ofPair p ≠ empty

/-- A digest that is not empty and that none of the inputs has. -/
structure Fresh (inputs : List (Digest × Digest)) (d : Digest) : Prop where
  nonempty : d ≠ empty
  foreign : ∀ p ∈ inputs, ofPair p ≠ d

instance (inputs : List (Digest × Digest)) : Decidable (Collisionless inputs) :=
  decidable_of_iff ((∀ p ∈ inputs, ∀ q ∈ inputs, ofPair p = ofPair q → p = q) ∧
    ∀ p ∈ inputs, ofPair p ≠ empty) ⟨fun h => ⟨h.1, h.2⟩, fun h => ⟨h.injective, h.nonempty⟩⟩

instance (inputs : List (Digest × Digest)) (d : Digest) : Decidable (Fresh inputs d) :=
  decidable_of_iff (d ≠ empty ∧ ∀ p ∈ inputs, ofPair p ≠ d)
    ⟨fun h => ⟨h.1, h.2⟩, fun h => ⟨h.nonempty, h.foreign⟩⟩

theorem Collisionless.mono {inputs inputs' : List (Digest × Digest)} (h : Collisionless inputs')
    (hSubset : inputs ⊆ inputs') : Collisionless inputs where
  injective p hp q hq := h.injective p (hSubset hp) q (hSubset hq)
  nonempty p hp := h.nonempty p (hSubset hp)

theorem Fresh.mono {inputs inputs' : List (Digest × Digest)} {d : Digest} (h : Fresh inputs' d)
    (hSubset : inputs ⊆ inputs') : Fresh inputs d where
  nonempty := h.nonempty
  foreign p hp := h.foreign p (hSubset hp)

theorem combine_cases (a b : Digest) :
    (a = empty ∧ b = empty ∧ combine a b = empty) ∨
      (combine a b = ofPair (a, b) ∧ (a, b) ∈ hashed a b) := by
  by_cases h : a = empty ∧ b = empty
  · exact .inl ⟨h.1, h.2, if_pos h⟩
  · refine .inr ⟨if_neg h, ?_⟩
    rw [hashed, if_neg h]
    exact List.mem_singleton_self _

theorem combine_eq_empty_iff {inputs : List (Digest × Digest)}
    (h : ∀ p ∈ inputs, ofPair p ≠ empty) {a b : Digest} (hHashed : hashed a b ⊆ inputs) :
    combine a b = empty ↔ a = empty ∧ b = empty := by
  constructor
  · intro hEmpty
    rcases combine_cases a b with ⟨ha, hb, -⟩ | ⟨hCombine, hInput⟩
    · exact ⟨ha, hb⟩
    · exact absurd (hCombine.symm.trans hEmpty) (h _ (hHashed hInput))
  · exact fun hBoth => if_pos hBoth

theorem Collisionless.combine_eq_empty_iff {inputs : List (Digest × Digest)}
    (h : Collisionless inputs) {a b : Digest} (hHashed : hashed a b ⊆ inputs) :
    combine a b = empty ↔ a = empty ∧ b = empty :=
  Digest.combine_eq_empty_iff h.nonempty hHashed

theorem Collisionless.combine_injective {inputs : List (Digest × Digest)} (h : Collisionless inputs)
    {a b c d : Digest} (hLeft : hashed a b ⊆ inputs) (hRight : hashed c d ⊆ inputs)
    (hEq : combine a b = combine c d) : a = c ∧ b = d := by
  rcases combine_cases a b with ⟨rfl, rfl, hEmpty⟩ | ⟨hCombine, hInput⟩
  · obtain ⟨rfl, rfl⟩ := (h.combine_eq_empty_iff hRight).mp (hEq.symm.trans hEmpty)
    exact ⟨rfl, rfl⟩
  rcases combine_cases c d with ⟨rfl, rfl, hEmpty⟩ | ⟨hCombine', hInput'⟩
  · exact (h.combine_eq_empty_iff hLeft).mp (hEq.trans hEmpty)
  rw [hCombine, hCombine'] at hEq
  exact Prod.ext_iff.mp (h.injective _ (hLeft hInput) _ (hRight hInput') hEq)

theorem Fresh.ne_combine {inputs : List (Digest × Digest)} {d : Digest} (h : Fresh inputs d)
    {a b : Digest} (hHashed : hashed a b ⊆ inputs) : combine a b ≠ d := by
  rcases combine_cases a b with ⟨-, -, hEmpty⟩ | ⟨hCombine, hInput⟩
  · rw [hEmpty]
    exact h.nonempty.symm
  · rw [hCombine]
    exact h.foreign _ (hHashed hInput)

end Digest

namespace Tree

variable [HashFunction]

/-- What the digests of the nodes of a subtree hash. -/
def inputs : Tree → List (Digest × Digest)
  | .empty => []
  | .leaf key value => Digest.hashed key value
  | .branch _ zero one => Digest.hashed zero.digest one.digest ++ (zero.inputs ++ one.inputs)

end Tree

namespace AuditPath

/-- A digest and its sibling, each on its side. -/
def sides (key : Digest) (depth : Fin 512) (digest sibling : Digest) : Digest × Digest :=
  if key.bit depth then (sibling, digest) else (digest, sibling)

theorem sides_cases (key : Digest) (level : Fin 512) (d s : Digest) :
    sides key level d s = (s, d) ∨ sides key level d s = (d, s) := by
  unfold sides
  split
  · exact .inl rfl
  · exact .inr rfl

theorem sides_injective {key d s d' s' : Digest} {level : Fin 512}
    (h : sides key level d s = sides key level d' s') : d = d' ∧ s = s' := by
  unfold sides at h
  split at h
  · exact (Prod.ext_iff.mp h).symm
  · exact Prod.ext_iff.mp h

variable [HashFunction]

/-- What joining a digest with its sibling hashes. -/
def joinInputs (key : Digest) (depth : Fin 512) (digest sibling : Digest) : List (Digest × Digest) :=
  Digest.hashed (sides key depth digest sibling).1 (sides key depth digest sibling).2

def ascendInputs (key : Digest) (depth : Fin 512) (sibling : Digest) (r : Reached) :
    List (Digest × Digest) :=
  if sibling = .empty ∧ r.isLeaf then [] else joinInputs key depth r.digest sibling

/-- What one level of a fold hashes. -/
def climbInputs (path : AuditPath) (key : Digest) (depth : Fin 512) (r : Reached) :
    List (Digest × Digest) :=
  let sibling := path.siblings.get depth
  if depth.val = key.firstDifference path.leafKey then
    Digest.hashed path.leafKey sibling ++
      if r.digest = .empty then [] else ascendInputs key depth (.combine path.leafKey sibling) r
  else ascendInputs key depth sibling r

/-- What a fold hashes. -/
def foldInputs (path : AuditPath) (key : Digest) : List (Fin 512) → Reached → List (Digest × Digest)
  | [], _ => []
  | level :: below, r =>
    path.climbInputs key level (path.fold key below r) ++ path.foldInputs key below r

/-- What computing the root for a key and a value hashes. -/
def inputs (path : AuditPath) (key value : Digest) : List (Digest × Digest) :=
  (if value = .empty then [] else Digest.hashed key value) ++
    path.foldInputs key Tree.levels (start key value)

/-! ## Joins -/

theorem join_eq (key : Digest) (level : Fin 512) (d s : Digest) :
    join key level d s = .combine (sides key level d s).1 (sides key level d s).2 := by
  unfold join sides
  split <;> rfl

section

variable {inputs : List (Digest × Digest)} {key d s : Digest} {level : Fin 512}

theorem join_injective (h : Digest.Collisionless inputs) {d' s' : Digest}
    (hLeft : joinInputs key level d s ⊆ inputs) (hRight : joinInputs key level d' s' ⊆ inputs)
    (hEq : join key level d s = join key level d' s') : d = d' ∧ s = s' := by
  rw [join_eq, join_eq] at hEq
  exact sides_injective (Prod.ext_iff.mpr (h.combine_injective hLeft hRight hEq))

theorem join_eq_empty_iff (h : ∀ p ∈ inputs, Digest.ofPair p ≠ .empty)
    (hInputs : joinInputs key level d s ⊆ inputs) :
    join key level d s = .empty ↔ d = .empty ∧ s = .empty := by
  rw [join_eq, Digest.combine_eq_empty_iff h hInputs]
  rcases sides_cases key level d s with hSides | hSides
  · rw [hSides, and_comm]
  · rw [hSides]

theorem join_ne_of_fresh {x : Digest} (hx : Digest.Fresh inputs x)
    (hInputs : joinInputs key level d s ⊆ inputs) : join key level d s ≠ x := by
  rw [join_eq]
  exact hx.ne_combine hInputs

/-- No join passes for a leaf, if what is joined is neither its key nor its value. -/
theorem join_ne_leaf (h : Digest.Collisionless inputs) {k v : Digest}
    (hInputs : joinInputs key level d s ⊆ inputs) (hLeaf : Digest.hashed k v ⊆ inputs)
    (hKey : d ≠ k) (hValue : d ≠ v) : join key level d s ≠ .combine k v := by
  intro hEq
  rw [join_eq] at hEq
  obtain ⟨hFirst, hSecond⟩ := h.combine_injective hInputs hLeaf hEq
  rcases sides_cases key level d s with hSides | hSides
  · rw [hSides] at hSecond
    exact hValue hSecond
  · rw [hSides] at hFirst
    exact hKey hFirst

end

/-! ## One level of a fold -/

/-- What one level of a fold can make of what was reached: it takes up the leaf of the path, lets a
lone leaf float, or joins a sibling. -/
inductive Climbed (path : AuditPath) (key : Digest) (level : Fin 512) (r : Reached) : Reached → Prop
  | adopt : level.val = key.firstDifference path.leafKey → r.digest = .empty →
      Digest.hashed path.leafKey (path.siblings.get level) ⊆ path.climbInputs key level r →
      Climbed path key level r ⟨.combine path.leafKey (path.siblings.get level), true⟩
  | float : r.isLeaf →
      (level.val ≠ key.firstDifference path.leafKey → path.siblings.get level = .empty) →
      Climbed path key level r r
  | join {sibling : Digest} : joinInputs key level r.digest sibling ⊆ path.climbInputs key level r →
      (level.val = key.firstDifference path.leafKey → r.digest ≠ .empty) →
      (level.val ≠ key.firstDifference path.leafKey → path.siblings.get level = sibling) →
      Climbed path key level r ⟨join key level r.digest sibling, false⟩

theorem climbed (path : AuditPath) (key : Digest) (level : Fin 512) (r : Reached) :
    Climbed path key level r (path.climb key level r) := by
  obtain ⟨leafKey, siblings⟩ := path
  by_cases hLeaf : level.val = key.firstDifference leafKey
  · rw [climb_of_eq siblings hLeaf]
    split
    · rename_i hEmpty
      refine .adopt hLeaf hEmpty ?_
      rw [climbInputs, if_pos hLeaf]
      exact List.subset_append_left _ _
    · rename_i hNonempty
      rw [ascend]
      split
      · rename_i hFloat
        exact .float hFloat.2 (absurd hLeaf ·)
      · rename_i hJoin
        refine .join ?_ (fun _ => hNonempty) (absurd hLeaf ·)
        rw [climbInputs, if_pos hLeaf, if_neg hNonempty, ascendInputs, if_neg hJoin]
        exact List.subset_append_right _ _
  · rw [climb_of_ne siblings hLeaf, ascend]
    split
    · rename_i hFloat
      exact .float hFloat.2 fun _ => hFloat.1
    · rename_i hJoin
      refine .join ?_ (fun h => absurd h hLeaf) fun _ => rfl
      rw [climbInputs, if_neg hLeaf, ascendInputs, if_neg hJoin]
      exact List.Subset.refl _

/-! ## Whole folds -/

theorem foldInputs_drop (path : AuditPath) (key : Digest) {depth : Nat} (hDepth : depth < 512)
    (r : Reached) : path.foldInputs key (Tree.levels.drop depth) r =
      path.climbInputs key ⟨depth, hDepth⟩ (path.fold key (Tree.levels.drop (depth + 1)) r) ++
        path.foldInputs key (Tree.levels.drop (depth + 1)) r := by
  rw [Tree.levels_drop hDepth]
  rfl

theorem foldInputs_of_quiet {path : AuditPath} {key : Digest} {levels : List (Fin 512)}
    (hQuiet : ∀ level ∈ levels, path.siblings.get level.val = .empty ∧
      level.val ≠ key.firstDifference path.leafKey) (value : Digest) :
    path.foldInputs key levels (start key value) = [] := by
  induction levels with
  | nil => rfl
  | cons level below ih =>
    have hBelow : ∀ level' ∈ below, path.siblings.get level'.val = .empty ∧
        level'.val ≠ key.firstDifference path.leafKey :=
      fun level' hLevel => hQuiet level' (List.mem_cons_of_mem _ hLevel)
    obtain ⟨hSibling, hLeaf⟩ := hQuiet level List.mem_cons_self
    rw [foldInputs, ih hBelow, fold_of_quiet hBelow, climbInputs, if_neg hLeaf, hSibling, start,
      ascendInputs]
    by_cases hValue : value = .empty
    · simp [hValue, joinInputs, sides, Digest.hashed]
    · simp [hValue]

theorem root_of_top {key leafKey : Digest} (hLeaf : key.firstDifference leafKey = 0)
    (sibling value : Digest) :
    root ⟨leafKey, Siblings.empty.put 0 sibling⟩ key value =
        (climb ⟨leafKey, Siblings.empty.put 0 sibling⟩ key 0 (start key value)).digest ∧
      inputs ⟨leafKey, Siblings.empty.put 0 sibling⟩ key value =
        (if value = .empty then [] else Digest.hashed key value) ++
          climbInputs ⟨leafKey, Siblings.empty.put 0 sibling⟩ key 0 (start key value) := by
  have hDeepest : ∀ level : Fin 512, 0 < level.val →
      (Siblings.empty.put 0 sibling).get level.val = .empty := by
    intro level hBelow
    rw [Siblings.get_put]
    exact (if_neg (Nat.ne_of_gt hBelow)).trans (Siblings.get_empty _)
  have hQuiet := @quiet_below ⟨leafKey, Siblings.empty.put 0 sibling⟩ key 0 (by decide) hLeaf hDeepest
  constructor
  · rw [root_eq, fold_drop _ _ (by decide), fold_of_quiet hQuiet]
    rfl
  · rw [inputs, ← Tree.levels_drop_zero, foldInputs_drop _ _ (by decide), fold_of_quiet hQuiet,
      foldInputs_of_quiet hQuiet, List.append_nil]
    rfl

/-! ## Folds -/

section

variable {inputs : List (Digest × Digest)} {path : AuditPath} {key value : Digest}

/-- What holds at the start of a fold and is kept by every level holds at its end. -/
theorem fold_induction {P : Reached → Prop} {r : Reached} (hStart : P r)
    (hClimb : ∀ level next, path.climbInputs key level next ⊆ inputs → P next →
      P (path.climb key level next))
    {levels : List (Fin 512)} (hInputs : path.foldInputs key levels r ⊆ inputs) :
    P (path.fold key levels r) := by
  induction levels with
  | nil => exact hStart
  | cons level below ih =>
    obtain ⟨hLevel, hBelow⟩ := List.append_subset.mp hInputs
    exact hClimb level _ hLevel (ih hBelow)

/-- A fold reaches no fresh digest that it did not start from. -/
theorem fold_ne_of_fresh {x : Digest} (hx : Digest.Fresh inputs x) {r : Reached}
    (hStart : r.digest ≠ x) {levels : List (Fin 512)}
    (hInputs : path.foldInputs key levels r ⊆ inputs) : (path.fold key levels r).digest ≠ x := by
  refine fold_induction (P := fun r => r.digest ≠ x) hStart (fun level r hClimb hReached => ?_) hInputs
  have hStep := path.climbed key level r
  generalize path.climb key level r = next at hStep ⊢
  cases hStep with
  | adopt _ _ hHashed => exact hx.ne_combine (List.Subset.trans hHashed hClimb)
  | float => exact hReached
  | join hHashed => exact join_ne_of_fresh hx (List.Subset.trans hHashed hClimb)

theorem climb_ne_empty (hInputs : ∀ p ∈ inputs, Digest.ofPair p ≠ .empty) {level : Fin 512}
    {r : Reached} (hClimb : path.climbInputs key level r ⊆ inputs) (hReached : r.digest ≠ .empty) :
    (path.climb key level r).digest ≠ .empty := by
  have hStep := path.climbed key level r
  generalize path.climb key level r = next at hStep ⊢
  cases hStep with
  | adopt _ hEmpty => exact absurd hEmpty hReached
  | float => exact hReached
  | join hHashed =>
    exact fun h => hReached ((join_eq_empty_iff hInputs (List.Subset.trans hHashed hClimb)).mp h).1

/-- A fold that hashes nothing to the empty digest reaches it only from there. -/
theorem fold_ne_empty (hInputs : ∀ p ∈ inputs, Digest.ofPair p ≠ .empty) {r : Reached}
    (hStart : r.digest ≠ .empty) {levels : List (Fin 512)}
    (hFold : path.foldInputs key levels r ⊆ inputs) : (path.fold key levels r).digest ≠ .empty :=
  fold_induction (P := fun r => r.digest ≠ .empty) hStart (fun _ _ => climb_ne_empty hInputs) hFold

theorem start_ne_empty (hInputs : ∀ p ∈ inputs, Digest.ofPair p ≠ .empty) (hValue : value ≠ .empty)
    (hHashed : Digest.hashed key value ⊆ inputs) : (start key value).digest ≠ .empty := by
  rw [start, if_neg hValue]
  exact fun h => hValue ((Digest.combine_eq_empty_iff hInputs hHashed).mp h).2

theorem start_ne_of_fresh {x : Digest} (hx : Digest.Fresh inputs x)
    (hInputs : (if value = .empty then [] else Digest.hashed key value) ⊆ inputs) :
    (start key value).digest ≠ x := by
  unfold start
  split
  · exact hx.nonempty.symm
  · rename_i hValue
    rw [if_neg hValue] at hInputs
    exact hx.ne_combine hInputs

end

end AuditPath

namespace Tree

variable [HashFunction]

theorem digest_ne_of_fresh {inputs : List (Digest × Digest)} {x : Digest}
    (hx : Digest.Fresh inputs x) {depth : Nat} {t : Tree} (hCanonical : Canonical depth t)
    (hInputs : t.inputs ⊆ inputs) : t.digest ≠ x := by
  cases hCanonical with
  | empty => exact hx.nonempty.symm
  | leaf => exact hx.ne_combine hInputs
  | branch => exact hx.ne_combine (List.append_subset.mp hInputs).1

end Tree

namespace Tree

open AuditPath

variable [HashFunction]

theorem inputs_child_subset (side : Bool) (d : Digest) (zero one : Tree) :
    (child side zero one).inputs ⊆ (Tree.branch d zero one).inputs := by
  apply List.subset_append_of_subset_right
  cases side with
  | false => exact List.subset_append_left _ _
  | true => exact List.subset_append_right _ _

theorem joinInputs_subset (key : Digest) (level : Fin 512) (d : Digest) (zero one : Tree) :
    joinInputs key level (child (key.bit level) zero one).digest
      (child (!key.bit level) zero one).digest ⊆ (Tree.branch d zero one).inputs := by
  apply List.subset_append_of_subset_left
  unfold joinInputs sides
  cases key.bit level <;> exact List.Subset.refl _

theorem Canonical.digest_eq_join {depth : Nat} {d : Digest} {zero one : Tree}
    (h : Canonical depth (.branch d zero one)) (key : Digest) (level : Fin 512) :
    d = join key level (Tree.child (key.bit level) zero one).digest
      (Tree.child (!key.bit level) zero one).digest := by
  cases h
  unfold join
  cases key.bit level <;> rfl

end Tree

namespace Trie

/-- What is assumed of the hash function for a trie and a fold: their inputs do not collide, and the
key of the fold and all keys and values of the trie are fresh. -/
structure Ideal [HashFunction] (t : Trie) (path : AuditPath) (key value : Digest) : Prop where
  collisionless : Digest.Collisionless (t.tree.inputs ++ path.inputs key value)
  key_fresh : Digest.Fresh (t.tree.inputs ++ path.inputs key value) key
  stored_fresh : ∀ b ∈ t.tree.bindings, Digest.Fresh (t.tree.inputs ++ path.inputs key value) b.1 ∧
    Digest.Fresh (t.tree.inputs ++ path.inputs key value) b.2

/-- A fold that hashes nothing but what the trie hashes is assumed no more of than any other fold. -/
theorem Ideal.of_subset [HashFunction] {t : Trie} {path path' : AuditPath} {key value value' : Digest}
    (h : t.Ideal path key value) (hInputs : path'.inputs key value' ⊆ t.tree.inputs) :
    t.Ideal path' key value' := by
  have hAll : t.tree.inputs ++ path'.inputs key value' ⊆ t.tree.inputs ++ path.inputs key value :=
    List.append_subset.mpr ⟨List.subset_append_left _ _,
      List.subset_append_of_subset_left _ hInputs⟩
  refine ⟨h.collisionless.mono hAll, h.key_fresh.mono hAll, fun b hb => ?_⟩
  exact ⟨(h.stored_fresh b hb).1.mono hAll, (h.stored_fresh b hb).2.mono hAll⟩

theorem collisionless_pair : Digest.Collisionless pair.tree.inputs := by decide +kernel

theorem fresh_pair : ∀ b ∈ pair.tree.bindings, Digest.Fresh pair.tree.inputs b.1 ∧
    Digest.Fresh pair.tree.inputs b.2 := by decide +kernel

theorem ideal_pair {path : AuditPath} {key v value : Digest} (hKey : (key, v) ∈ pair.tree.bindings)
    (hInputs : path.inputs key value ⊆ pair.tree.inputs) : pair.Ideal path key value := by
  have hAll : pair.tree.inputs ++ path.inputs key value ⊆ pair.tree.inputs :=
    List.append_subset.mpr ⟨List.Subset.refl _, hInputs⟩
  refine ⟨collisionless_pair.mono hAll, (fresh_pair _ hKey).1.mono hAll, fun b hb => ?_⟩
  exact ⟨(fresh_pair b hb).1.mono hAll, (fresh_pair b hb).2.mono hAll⟩

end Trie

end SignedDirectory
