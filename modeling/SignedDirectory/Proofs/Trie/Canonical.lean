import Mathlib.Order.Basic
import SignedDirectory.Proofs.Digest.Bits
import SignedDirectory.Trie

/-!
# The canonical form of tries

`Tree.Canonical` is the shape that a subtree has at its depth: leaves are as high up as they are
alone, a branch keeps the digest of its two subtrees, and every key is on the side of its bit. Merging
two canonical subtrees gives a canonical one, and a canonical subtree is determined by what it binds
(`Canonical.eq_of_mem_iff`).
-/

namespace SignedDirectory.Tree

/-! ## Bindings -/

/-- The bindings of a subtree, those on the zero side first. -/
def bindings : Tree → List (Digest × Digest)
  | .empty => []
  | .leaf key value => [(key, value)]
  | .branch _ zero one => zero.bindings ++ one.bindings

/-- The subtree on one side. -/
def child (side : Bool) (zero one : Tree) : Tree := if side then one else zero

theorem mem_child_iff (side : Bool) (d : Digest) (zero one : Tree) (b : Digest × Digest) :
    b ∈ (branch d zero one).bindings ↔
      b ∈ (child side zero one).bindings ∨ b ∈ (child (!side) zero one).bindings := by
  cases side <;> simp [bindings, child, or_comm]

variable [HashFunction]

/-- The subtree over a subtree on one side and another on the other side. -/
def graft (side : Bool) (near far : Tree) : Tree := if side then merge far near else merge near far

theorem merge_eq_branch {zero one : Tree} (hBoth : zero = .empty → one = .empty → False)
    (hZeroLeaf : ∀ k v, zero = .leaf k v → one = .empty → False)
    (hOneLeaf : ∀ k v, zero = .empty → one = .leaf k v → False) :
    merge zero one = .branch (.combine zero.digest one.digest) zero one :=
  merge.eq_4 zero one hBoth hZeroLeaf hOneLeaf

theorem bindings_merge (zero one : Tree) :
    (merge zero one).bindings = zero.bindings ++ one.bindings := by
  fun_cases merge zero one <;> simp [bindings]

theorem mem_bindings_graft (side : Bool) (near far : Tree) (b : Digest × Digest) :
    b ∈ (graft side near far).bindings ↔ b ∈ near.bindings ∨ b ∈ far.bindings := by
  cases side with
  | false => simp [graft, bindings_merge]
  | true => simp [graft, bindings_merge, or_comm]

/-! ## Canonical subtrees -/

/-- The shape of a subtree at a depth: no value is empty, the keys below a branch are on the sides
of their bits, and a branch is what merging its two subtrees gives. -/
inductive Canonical : Nat → Tree → Prop where
  | empty {depth : Nat} : Canonical depth .empty
  | leaf {depth : Nat} {key value : Digest} : value ≠ .empty → Canonical depth (.leaf key value)
  | branch {depth : Nat} {zero one : Tree} (hDepth : depth < 512) :
      Canonical (depth + 1) zero → Canonical (depth + 1) one →
      (∀ b ∈ zero.bindings, b.1.bit ⟨depth, hDepth⟩ = false) →
      (∀ b ∈ one.bindings, b.1.bit ⟨depth, hDepth⟩ = true) →
      merge zero one = .branch (.combine zero.digest one.digest) zero one →
      Canonical depth (.branch (.combine zero.digest one.digest) zero one)

namespace Canonical

theorem merge {depth : Nat} {zero one : Tree} (hDepth : depth < 512)
    (hZero : Canonical (depth + 1) zero) (hOne : Canonical (depth + 1) one)
    (hZeroBit : ∀ b ∈ zero.bindings, b.1.bit ⟨depth, hDepth⟩ = false)
    (hOneBit : ∀ b ∈ one.bindings, b.1.bit ⟨depth, hDepth⟩ = true) :
    Canonical depth (merge zero one) := by
  fun_cases Tree.merge zero one with
  | case1 => exact .empty
  | case2 key value =>
    cases hZero with
    | leaf hValue => exact .leaf hValue
  | case3 key value =>
    cases hOne with
    | leaf hValue => exact .leaf hValue
  | case4 _ _ hBoth hZeroLeaf hOneLeaf =>
    exact .branch hDepth hZero hOne hZeroBit hOneBit (merge_eq_branch hBoth hZeroLeaf hOneLeaf)

theorem graft {depth : Nat} {side : Bool} {near far : Tree} (hDepth : depth < 512)
    (hNear : Canonical (depth + 1) near) (hFar : Canonical (depth + 1) far)
    (hNearBit : ∀ b ∈ near.bindings, b.1.bit ⟨depth, hDepth⟩ = side)
    (hFarBit : ∀ b ∈ far.bindings, b.1.bit ⟨depth, hDepth⟩ = !side) :
    Canonical depth (graft side near far) := by
  cases side with
  | false => exact hNear.merge hDepth hFar hNearBit hFarBit
  | true => exact hFar.merge hDepth hNear hFarBit hNearBit

theorem value_ne_empty {depth : Nat} {t : Tree} (h : Canonical depth t) :
    ∀ b ∈ t.bindings, b.2 ≠ .empty := by
  induction h with
  | empty => simp [bindings]
  | leaf hValue => simpa [bindings] using hValue
  | branch _ _ _ _ _ _ ihZero ihOne =>
    intro b hb
    rcases List.mem_append.mp hb with hb | hb
    · exact ihZero b hb
    · exact ihOne b hb

theorem exists_binding {depth : Nat} {t : Tree} (h : Canonical depth t) (hNonempty : t ≠ .empty) :
    ∃ b, b ∈ t.bindings := by
  induction h with
  | empty => exact absurd rfl hNonempty
  | leaf => exact ⟨_, List.mem_singleton_self _⟩
  | @branch _ zero one _ _ _ _ _ hShape ihZero ihOne =>
    by_cases hZero : zero = .empty
    · have hOne : one ≠ .empty := by
        rintro rfl
        rw [hZero] at hShape
        cases hShape
      obtain ⟨b, hb⟩ := ihOne hOne
      exact ⟨b, List.mem_append_right _ hb⟩
    · obtain ⟨b, hb⟩ := ihZero hZero
      exact ⟨b, List.mem_append_left _ hb⟩

theorem exists_ne {depth : Nat} {t : Tree} (h : Canonical depth t) (hNonempty : t ≠ .empty)
    (hLeaf : ∀ k v, t ≠ .leaf k v) : ∃ a ∈ t.bindings, ∃ b ∈ t.bindings, a.1 ≠ b.1 := by
  induction h with
  | empty => exact absurd rfl hNonempty
  | leaf => exact absurd rfl (hLeaf _ _)
  | @branch _ zero one _ hZero hOne hZeroBit hOneBit hShape ihZero ihOne =>
    by_cases hZeroEmpty : zero = .empty
    · obtain ⟨a, ha, b, hb, hNe⟩ := ihOne (by
        rintro rfl
        rw [hZeroEmpty] at hShape
        cases hShape) (by
        rintro k v rfl
        rw [hZeroEmpty] at hShape
        cases hShape)
      exact ⟨a, List.mem_append_right _ ha, b, List.mem_append_right _ hb, hNe⟩
    by_cases hOneEmpty : one = .empty
    · obtain ⟨a, ha, b, hb, hNe⟩ := ihZero hZeroEmpty (by
        rintro k v rfl
        rw [hOneEmpty] at hShape
        cases hShape)
      exact ⟨a, List.mem_append_left _ ha, b, List.mem_append_left _ hb, hNe⟩
    · obtain ⟨a, ha⟩ := hZero.exists_binding hZeroEmpty
      obtain ⟨b, hb⟩ := hOne.exists_binding hOneEmpty
      refine ⟨a, List.mem_append_left _ ha, b, List.mem_append_right _ hb, fun hKey => ?_⟩
      have hBit := hOneBit b hb
      rw [← hKey, hZeroBit a ha] at hBit
      cases hBit

theorem mem_child_bindings {depth : Nat} {d : Digest} {zero one : Tree}
    (h : Canonical depth (.branch d zero one)) (hDepth : depth < 512) (side : Bool)
    (b : Digest × Digest) :
    b ∈ (child side zero one).bindings ↔
      b ∈ (Tree.branch d zero one).bindings ∧ b.1.bit ⟨depth, hDepth⟩ = side := by
  cases h with
  | branch _ _ _ hZeroBit hOneBit =>
    rw [bindings, List.mem_append]
    cases side with
    | false =>
      refine ⟨fun hb => ⟨.inl hb, hZeroBit b hb⟩, fun ⟨hb, hBit⟩ => hb.resolve_right fun hOne => ?_⟩
      rw [hOneBit b hOne] at hBit
      cases hBit
    | true =>
      refine ⟨fun hb => ⟨.inr hb, hOneBit b hb⟩, fun ⟨hb, hBit⟩ => hb.resolve_left fun hZero => ?_⟩
      rw [hZeroBit b hZero] at hBit
      cases hBit

/-- Canonical subtrees that bind the same keys to the same values are the same. -/
theorem eq_of_mem_iff {depth : Nat} {s t : Tree} (hs : Canonical depth s) (ht : Canonical depth t)
    (h : ∀ b, b ∈ s.bindings ↔ b ∈ t.bindings) : s = t := by
  induction hs generalizing t with
  | empty =>
    by_contra hNe
    obtain ⟨b, hb⟩ := ht.exists_binding (Ne.symm hNe)
    exact absurd ((h b).mpr hb) (List.not_mem_nil)
  | @leaf _ key value =>
    cases ht with
    | empty => exact absurd ((h (key, value)).mp (List.mem_singleton_self _)) (List.not_mem_nil)
    | leaf =>
      have hEq := List.mem_singleton.mp ((h (key, value)).mp (List.mem_singleton_self _))
      cases hEq
      rfl
    | branch hDepth hZero hOne hZeroBit hOneBit hShape =>
      -- A branch binds at least two keys.
      have hBranch := Canonical.branch hDepth hZero hOne hZeroBit hOneBit hShape
      obtain ⟨a, ha, b, hb, hNe⟩ := hBranch.exists_ne (by simp) (by simp)
      rw [List.mem_singleton.mp ((h a).mpr ha), List.mem_singleton.mp ((h b).mpr hb)] at hNe
      exact absurd rfl hNe
  | @branch depth zero one hDepth hZero hOne hZeroBit hOneBit hShape ihZero ihOne =>
    have hBranch := Canonical.branch hDepth hZero hOne hZeroBit hOneBit hShape
    obtain ⟨a, ha, b, hb, hNe⟩ := hBranch.exists_ne (by simp) (by simp)
    cases ht with
    | empty => exact absurd ((h a).mp ha) (List.not_mem_nil)
    | leaf =>
      rw [List.mem_singleton.mp ((h a).mp ha), List.mem_singleton.mp ((h b).mp hb)] at hNe
      exact absurd rfl hNe
    | @branch _ zero' one' _ hZero' hOne' hZeroBit' hOneBit' hShape' =>
      have hBranch' := Canonical.branch hDepth hZero' hOne' hZeroBit' hOneBit' hShape'
      have hSide : ∀ side b, b ∈ (child side zero one).bindings ↔
          b ∈ (child side zero' one').bindings := by
        intro side b
        rw [hBranch.mem_child_bindings hDepth, hBranch'.mem_child_bindings hDepth, h]
      obtain rfl := ihZero hZero' (hSide false)
      obtain rfl := ihOne hOne' (hSide true)
      rfl

theorem child {depth : Nat} {d : Digest} {zero one : Tree}
    (h : Canonical depth (.branch d zero one)) (side : Bool) :
    Canonical (depth + 1) (Tree.child side zero one) := by
  cases h with
  | branch _ hZero hOne =>
    cases side with
    | false => exact hZero
    | true => exact hOne

theorem depth_lt {depth : Nat} {d : Digest} {zero one : Tree}
    (h : Canonical depth (.branch d zero one)) : depth < 512 := by
  cases h
  assumption

theorem leaf_at {depth : Nat} {k v : Digest} (h : Canonical depth (.leaf k v)) (depth' : Nat) :
    Canonical depth' (.leaf k v) := by
  cases h with
  | leaf hValue => exact .leaf hValue

end Canonical

end SignedDirectory.Tree
