import SignedDirectory.Proofs.AuditPath.Inputs

/-!
# A root commits to a whole trie

Canonical subtrees with equal digests are equal, because each digest determines what was combined in it.
A leaf and a branch, which are hashed alike, are told apart by the value of the leaf: it is no digest of
a node, and the right side of a branch has one.
-/

namespace SignedDirectory

namespace Tree

variable [HashFunction] {inputs : List (Digest × Digest)}

/-- Some inputs cover a subtree: its nodes hash no others, and no value that it binds is the digest of
one of them. -/
structure Covered (inputs : List (Digest × Digest)) (t : Tree) : Prop where
  inputs_subset : t.inputs ⊆ inputs
  value_fresh : ∀ b ∈ t.bindings, Digest.Fresh inputs b.2

theorem Covered.branch {d : Digest} {zero one : Tree} (h : Covered inputs (.branch d zero one)) :
    Digest.hashed zero.digest one.digest ⊆ inputs ∧ Covered inputs zero ∧ Covered inputs one := by
  obtain ⟨hBranch, hSides⟩ := List.append_subset.mp h.inputs_subset
  obtain ⟨hZero, hOne⟩ := List.append_subset.mp hSides
  obtain ⟨hZeroFresh, hOneFresh⟩ := List.forall_mem_append.mp h.value_fresh
  exact ⟨hBranch, ⟨hZero, hZeroFresh⟩, ⟨hOne, hOneFresh⟩⟩

theorem Canonical.eq_empty_of_digest (hInputs : Digest.Collisionless inputs) {depth : Nat} {t : Tree}
    (h : Canonical depth t) (hCovered : Covered inputs t) (hEmpty : t.digest = .empty) :
    t = .empty := by
  induction h with
  | empty => rfl
  | leaf hValue =>
    have hBoth := (hInputs.combine_eq_empty_iff hCovered.inputs_subset).mp hEmpty
    exact absurd hBoth.2 hValue
  | branch _ _ _ _ _ hShape ihZero ihOne =>
    obtain ⟨hBranch, hZero, hOne⟩ := hCovered.branch
    obtain ⟨hZeroEmpty, hOneEmpty⟩ := (hInputs.combine_eq_empty_iff hBranch).mp hEmpty
    obtain rfl := ihZero hZero hZeroEmpty
    obtain rfl := ihOne hOne hOneEmpty
    cases hShape

theorem digest_leaf_ne_branch (hInputs : Digest.Collisionless inputs) {depth : Nat}
    {k v d : Digest} {zero one : Tree} (hLeaf : Covered inputs (.leaf k v))
    (hCanonical : Canonical depth (.branch d zero one)) (hBranch : Covered inputs (.branch d zero one)) :
    (leaf k v).digest ≠ (branch d zero one).digest := by
  intro hEq
  cases hCanonical with
  | branch _ _ hOneCanonical =>
    obtain ⟨hSides, -, hOne⟩ := hBranch.branch
    obtain ⟨-, hValue⟩ := hInputs.combine_injective hLeaf.inputs_subset hSides hEq
    have hFresh := hLeaf.value_fresh (k, v) (List.mem_singleton_self _)
    exact digest_ne_of_fresh hFresh hOneCanonical hOne.inputs_subset hValue.symm

/-- Canonical subtrees at one depth with equal digests are equal. -/
theorem Canonical.eq_of_digest_eq (hInputs : Digest.Collisionless inputs) {depth : Nat} {s t : Tree}
    (hs : Canonical depth s) (ht : Canonical depth t) (hsCovered : Covered inputs s)
    (htCovered : Covered inputs t) (hEq : s.digest = t.digest) : s = t := by
  induction hs generalizing t with
  | empty => exact (ht.eq_empty_of_digest hInputs htCovered hEq.symm).symm
  | @leaf depth k v hValue =>
    cases ht with
    | empty =>
      have hLeaf : Canonical depth (.leaf k v) := .leaf hValue
      exact hLeaf.eq_empty_of_digest hInputs hsCovered hEq
    | leaf =>
      obtain ⟨rfl, rfl⟩ :=
        hInputs.combine_injective hsCovered.inputs_subset htCovered.inputs_subset hEq
      rfl
    | branch hDepth hZero hOne hZeroBit hOneBit hShape =>
      have hBranch := Canonical.branch hDepth hZero hOne hZeroBit hOneBit hShape
      exact absurd hEq (digest_leaf_ne_branch hInputs hsCovered hBranch htCovered)
  | branch hDepth hZero hOne hZeroBit hOneBit hShape ihZero ihOne =>
    have hBranch := Canonical.branch hDepth hZero hOne hZeroBit hOneBit hShape
    cases ht with
    | empty => exact hBranch.eq_empty_of_digest hInputs hsCovered hEq
    | leaf => exact absurd hEq.symm (digest_leaf_ne_branch hInputs htCovered hBranch hsCovered)
    | branch _ hZero' hOne' =>
      -- The same digests were combined, and each of them determines its side.
      obtain ⟨hsSides, hsZero, hsOne⟩ := hsCovered.branch
      obtain ⟨htSides, htZero, htOne⟩ := htCovered.branch
      obtain ⟨hZeroEq, hOneEq⟩ := hInputs.combine_injective hsSides htSides hEq
      obtain rfl := ihZero hZero' hsZero htZero hZeroEq
      obtain rfl := ihOne hOne' hsOne htOne hOneEq
      rfl

end Tree

namespace Trie

/-- What is assumed of the hash function for two tries: the inputs of their nodes do not collide, and
no value that they bind is the digest of a node. -/
structure Separated [HashFunction] (t t' : Trie) : Prop where
  collisionless : Digest.Collisionless (t.tree.inputs ++ t'.tree.inputs)
  value_fresh : ∀ b ∈ t.tree.bindings ++ t'.tree.bindings,
    Digest.Fresh (t.tree.inputs ++ t'.tree.inputs) b.2

/-- Two tries have the same root exactly if they bind the same keys to the same values. -/
theorem Reachable.root_eq_iff [HashFunction] {t t' : Trie} (h : t.Reachable) (h' : t'.Reachable)
    (hSeparated : t.Separated t') :
    t.root = t'.root ↔ ∀ key value, t.Binds key value ↔ t'.Binds key value := by
  constructor
  · intro hRoot key value
    obtain ⟨hValues, hValues'⟩ := List.forall_mem_append.mp hSeparated.value_fresh
    have hTree : t.tree = t'.tree := h.canonical.eq_of_digest_eq hSeparated.collisionless h'.canonical
      ⟨List.subset_append_left _ _, hValues⟩ ⟨List.subset_append_right _ _, hValues'⟩ hRoot
    rw [h.binds_iff, h'.binds_iff, hTree]
  · intro hBinds
    have hTree : t.tree = t'.tree := by
      apply h.canonical.eq_of_mem_iff h'.canonical
      rintro ⟨key, value⟩
      rw [← h.binds_iff, ← h'.binds_iff]
      exact hBinds key value
    exact congrArg Tree.digest hTree

theorem root_eq_iff_of_lone_pair : lone.Separated pair ∧
    (lone.root = pair.root ↔ ∀ key value, lone.Binds key value ↔ pair.Binds key value) := by
  have hInputs : lone.tree.inputs ++ pair.tree.inputs ⊆ pair.tree.inputs := by decide +kernel
  have hBindings : lone.tree.bindings ++ pair.tree.bindings ⊆ pair.tree.bindings := by
    decide +kernel
  have hSeparated : lone.Separated pair :=
    ⟨collisionless_pair.mono hInputs, fun b hb => (fresh_pair b (hBindings hb)).2.mono hInputs⟩
  exact ⟨hSeparated, reachable_lone.root_eq_iff reachable_pair hSeparated⟩

end Trie

end SignedDirectory
