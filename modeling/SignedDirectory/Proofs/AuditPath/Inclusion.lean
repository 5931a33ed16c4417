import SignedDirectory.Proofs.AuditPath.Inputs

/-!
# Inclusion

A path that commits a key with a value to the root of a trie shows that the trie gives the key that
value, whatever the path holds. The fold is matched with the trie from the root down: a digest reached
below a branch is that of the subtree on the side of the key, and neither a join nor a branch can pass
for a leaf, because keys and values are no digests of nodes.
-/

namespace SignedDirectory

namespace AuditPath

open SignedDirectory.Tree

variable [HashFunction] {inputs : List (Digest × Digest)} {path : AuditPath} {key value : Digest}

theorem fold_of_value (hInputs : Digest.Collisionless inputs) (hValue : value ≠ .empty)
    (hStart : Digest.hashed key value ⊆ inputs) {levels : List (Fin 512)}
    (hFold : path.foldInputs key levels (start key value) ⊆ inputs) :
    (path.fold key levels (start key value)).digest ≠ .empty ∧
      ((path.fold key levels (start key value)).isLeaf →
        path.fold key levels (start key value) = ⟨.combine key value, true⟩) := by
  refine fold_induction
    (P := fun r => r.digest ≠ .empty ∧ (r.isLeaf → r = ⟨.combine key value, true⟩)) ?_ ?_ hFold
  · exact ⟨start_ne_empty hInputs.nonempty hValue hStart, fun _ => if_neg hValue⟩
  · rintro level r hClimb ⟨hReached, hLeaf⟩
    refine ⟨climb_ne_empty hInputs.nonempty hClimb hReached, ?_⟩
    have hStep := path.climbed key level r
    generalize path.climb key level r = next at hStep ⊢
    cases hStep with
    | adopt _ hEmpty => exact absurd hEmpty hReached
    | float => exact hLeaf
    | join => exact fun h => absurd h (by simp)

/-- A fold from a value that reaches the digest of a canonical subtree shows that the subtree binds the
key to the value. -/
theorem mem_bindings_of_fold_eq (hInputs : Digest.Collisionless inputs) (hValue : value ≠ .empty)
    (hStart : Digest.hashed key value ⊆ inputs) (hKey : Digest.Fresh inputs key) {depth : Nat}
    (hDepth : depth ≤ 512) {t : Tree} (hCanonical : Canonical depth t) (hTree : t.inputs ⊆ inputs)
    (hStored : ∀ b ∈ t.bindings, Digest.Fresh inputs b.1 ∧ Digest.Fresh inputs b.2)
    (hFold : path.foldInputs key (levels.drop depth) (start key value) ⊆ inputs)
    (hEq : (path.fold key (levels.drop depth) (start key value)).digest = t.digest) :
    (key, value) ∈ t.bindings := by
  have hNonempty : t ≠ .empty := by
    rintro rfl
    exact (fold_of_value hInputs hValue hStart hFold).1 hEq
  induction hDepth using Nat.decreasingInduction generalizing t with
  | self =>
    rw [fold_drop_width, start, if_neg hValue] at hEq
    cases hCanonical with
    | empty => exact absurd rfl hNonempty
    | leaf =>
      obtain ⟨rfl, rfl⟩ := hInputs.combine_injective hStart hTree hEq
      exact List.mem_singleton_self _
    | branch hLt => exact absurd hLt (Nat.lt_irrefl 512)
  | of_succ depth hLt ih =>
    rw [foldInputs_drop _ _ hLt] at hFold
    obtain ⟨hClimb, hBelow⟩ := List.append_subset.mp hFold
    rw [fold_drop _ _ hLt] at hEq
    obtain ⟨hReached, hLeaf⟩ := fold_of_value hInputs hValue hStart hBelow
    have hFresh : ∀ x, Digest.Fresh inputs x →
        (path.fold key (levels.drop (depth + 1)) (start key value)).digest ≠ x := by
      intro x hx
      apply fold_ne_of_fresh hx (start_ne_of_fresh hx ?_) hBelow
      rw [if_neg hValue]
      exact hStart
    generalize path.fold key (levels.drop (depth + 1)) (start key value) = r at *
    have hStep := path.climbed key ⟨depth, hLt⟩ r
    generalize path.climb key ⟨depth, hLt⟩ r = next at hStep hEq
    cases hStep with
    | adopt _ hEmpty => exact absurd hEmpty hReached
    | float hFloat =>
      cases t with
      | empty => exact absurd rfl hNonempty
      | leaf k v => exact ih (hCanonical.leaf_at _) hTree hStored hBelow hEq hNonempty
      | branch d zero one =>
        -- What floats is the leaf, and a branch has no key for its left side.
        rw [hLeaf hFloat] at hEq
        cases hCanonical with
        | branch _ hZero =>
          obtain ⟨hBranch, hChildren⟩ := List.append_subset.mp hTree
          obtain ⟨hKeyEq, -⟩ := hInputs.combine_injective hStart hBranch hEq
          obtain ⟨hZeroInputs, -⟩ := List.append_subset.mp hChildren
          exact absurd hKeyEq.symm (digest_ne_of_fresh hKey hZero hZeroInputs)
    | join hHashed =>
      have hJoin := List.Subset.trans hHashed hClimb
      cases t with
      | empty => exact absurd rfl hNonempty
      | leaf k v =>
        obtain ⟨hk, hv⟩ := hStored (k, v) (List.mem_singleton_self _)
        exact absurd hEq (join_ne_leaf hInputs hJoin hTree (hFresh k hk) (hFresh v hv))
      | branch d zero one =>
        rw [Tree.digest, hCanonical.digest_eq_join key ⟨depth, hLt⟩] at hEq
        have hBranch := List.Subset.trans (joinInputs_subset key ⟨depth, hLt⟩ d zero one) hTree
        obtain ⟨hNear, -⟩ := join_injective hInputs hJoin hBranch hEq
        apply (mem_child_iff (key.bit ⟨depth, hLt⟩) d zero one _).mpr
        left
        refine ih (hCanonical.child _) (List.Subset.trans (inputs_child_subset _ d zero one) hTree)
          (fun b hb => hStored b ((mem_child_iff _ d zero one b).mpr (.inl hb))) hBelow hNear ?_
        intro hEmpty
        rw [hEmpty] at hNear
        exact hReached hNear

end AuditPath

namespace Trie

/-- Whatever a path holds, if it commits a key with a value to the root of a trie, then the trie binds
the key to that value. -/
theorem Reachable.binds_of_root_eq [HashFunction] {t : Trie} (h : t.Reachable) {path : AuditPath}
    {key value : Digest} (hValue : value ≠ .empty) (hIdeal : t.Ideal path key value)
    (hRoot : path.root key value = t.root) : t.Binds key value := by
  rw [h.binds_iff]
  have hFold : path.inputs key value ⊆ t.tree.inputs ++ path.inputs key value :=
    List.subset_append_right _ _
  obtain ⟨hStart, hFold⟩ := List.append_subset.mp hFold
  rw [if_neg hValue] at hStart
  rw [← Tree.levels_drop_zero] at hFold
  rw [AuditPath.root_eq] at hRoot
  exact AuditPath.mem_bindings_of_fold_eq hIdeal.collisionless hValue hStart hIdeal.key_fresh
    (Nat.zero_le 512) h.canonical (List.subset_append_left _ _) hIdeal.stored_fresh hFold hRoot

theorem binds_of_root_pair :
    AuditPath.root ⟨.filled 2, Siblings.empty.put 0 (.filled 3)⟩ (.filled 1) (.filled 4) = pair.root ∧
      pair.Binds (.filled 1) (.filled 4) := by
  have hLeaf : Digest.firstDifference (.filled 1) (.filled 2) = 0 := by decide +kernel
  obtain ⟨hRoot, hInputs⟩ := AuditPath.root_of_top hLeaf (.filled 3) (.filled 4)
  have hIdeal : pair.Ideal ⟨.filled 2, Siblings.empty.put 0 (.filled 3)⟩ (.filled 1) (.filled 4) := by
    apply ideal_pair (v := .filled 4) (by decide +kernel)
    rw [hInputs]
    decide +kernel
  have hSame : AuditPath.root ⟨.filled 2, Siblings.empty.put 0 (.filled 3)⟩ (.filled 1) (.filled 4) =
      pair.root := by
    rw [hRoot]
    decide +kernel
  exact ⟨hSame, reachable_pair.binds_of_root_eq (by decide +kernel) hIdeal hSame⟩

end Trie

end SignedDirectory
