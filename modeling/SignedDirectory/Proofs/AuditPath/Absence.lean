import SignedDirectory.Proofs.AuditPath.Inputs

/-!
# Absence

Which paths commit a bound key with no value to the root of a trie. A fold from nothing takes up the
leaf of the path unread, so a branch passes for that leaf if its two digests stand as the key and the
value of the leaf. `AuditPath.Hides` says where a path has such a leaf; exactly these paths show a bound
key absent, and there are some as soon as the trie has another key.
-/

namespace SignedDirectory

namespace AuditPath

open SignedDirectory.Tree

/-- From a depth on, the path has its leaf and no other sibling. -/
structure Lone (path : AuditPath) (key : Digest) (depth : Nat) : Prop where
  depth_le : depth ≤ key.firstDifference path.leafKey
  foreign : key ≠ path.leafKey
  siblings : ∀ level : Fin 512, depth ≤ level.val → level.val ≠ key.firstDifference path.leafKey →
    path.siblings.get level.val = .empty

theorem Lone.succ {path : AuditPath} {key : Digest} {depth : Nat} (h : Lone path key depth)
    (hDepth : depth ≠ key.firstDifference path.leafKey) : Lone path key (depth + 1) where
  depth_le := Nat.lt_of_le_of_ne h.depth_le hDepth
  foreign := h.foreign
  siblings level hLevel := h.siblings level (Nat.le_of_succ_le hLevel)

theorem Lone.of_succ {path : AuditPath} {key : Digest} {depth : Nat} (h : Lone path key (depth + 1))
    (hSibling : path.siblings.get depth = .empty) : Lone path key depth where
  depth_le := Nat.le_of_succ_le h.depth_le
  foreign := h.foreign
  siblings level hLevel hLeaf := by
    rcases Nat.eq_or_lt_of_le hLevel with hEq | hLt
    · rw [← hEq]
      exact hSibling
    · exact h.siblings level hLt hLeaf

/-- Below its leaf such a path has nothing. -/
theorem Lone.quiet {path : AuditPath} {key : Digest} {depth : Nat} (h : Lone path key depth)
    (hLt : depth < 512) (hLeaf : depth = key.firstDifference path.leafKey) :
    ∀ level ∈ levels.drop (depth + 1), path.siblings.get level.val = .empty ∧
      level.val ≠ key.firstDifference path.leafKey := by
  apply quiet_below hLt hLeaf.symm
  intro level hBelow
  apply h.siblings level hBelow.le
  rw [← hLeaf]
  exact Nat.ne_of_gt hBelow

variable [HashFunction]

/-- A path hides a key in a subtree: down to some branch on the path of the key its siblings are those
of the subtree, and there its leaf has the digests of the two sides of the branch. -/
inductive Hides (path : AuditPath) (key : Digest) : Nat → Tree → Prop
  | leaf {depth : Nat} {d : Digest} {zero one : Tree} : Lone path key depth →
      path.leafKey = zero.digest →
      path.siblings.get (key.firstDifference path.leafKey) = one.digest →
      Hides path key depth (.branch d zero one)
  | step {depth : Nat} {d : Digest} {zero one : Tree} (hDepth : depth < 512) :
      ¬ Lone path key depth →
      path.siblings.get depth = (child (!key.bit ⟨depth, hDepth⟩) zero one).digest →
      Hides path key (depth + 1) (child (key.bit ⟨depth, hDepth⟩) zero one) →
      Hides path key depth (.branch d zero one)

theorem Hides.depth_le {path : AuditPath} {key : Digest} {depth : Nat} {t : Tree}
    (h : Hides path key depth t) : depth ≤ key.firstDifference path.leafKey := by
  induction h with
  | leaf hLone => exact hLone.depth_le
  | step _ _ _ _ ih => exact Nat.le_of_succ_le ih

theorem Hides.eq_branch {path : AuditPath} {key : Digest} {depth : Nat} {t : Tree}
    (h : Hides path key depth t) : ∃ d zero one, t = .branch d zero one := by
  cases h with
  | leaf => exact ⟨_, _, _, rfl⟩
  | step => exact ⟨_, _, _, rfl⟩

variable {inputs : List (Digest × Digest)} {path : AuditPath} {key : Digest}

/-! ## Folds from nothing -/

/-- The fold that starts from nothing and has met only the leaf holds that leaf. -/
theorem fold_of_lone {depth : Nat} (h : Lone path key depth) :
    path.fold key (levels.drop depth) (start key .empty) =
      ⟨.combine path.leafKey (path.siblings.get (key.firstDifference path.leafKey)), true⟩ := by
  have hDepth : depth ≤ 512 := h.depth_le.trans (Digest.firstDifference_le _ _)
  induction hDepth using Nat.decreasingInduction with
  | self => exact absurd (Digest.firstDifference_lt_iff.mpr h.foreign) (Nat.not_lt.mpr h.depth_le)
  | of_succ depth hLt ih =>
    rw [fold_drop _ _ hLt]
    by_cases hLeaf : depth = key.firstDifference path.leafKey
    · rw [fold_of_quiet (h.quiet hLt hLeaf)]
      obtain ⟨leafKey, siblings⟩ := path
      rw [climb_of_eq siblings hLeaf, ← hLeaf]
      rfl
    · rw [ih (h.succ hLeaf)]
      have hSibling := h.siblings ⟨depth, hLt⟩ (Nat.le_refl depth) hLeaf
      obtain ⟨leafKey, siblings⟩ := path
      rw [climb_of_ne siblings hLeaf, hSibling]
      exact if_pos ⟨rfl, rfl⟩

/-- Such a fold hashes nothing but the leaf. -/
theorem foldInputs_of_lone {depth : Nat} (h : Lone path key depth) :
    path.foldInputs key (levels.drop depth) (start key .empty) =
      Digest.hashed path.leafKey (path.siblings.get (key.firstDifference path.leafKey)) := by
  have hDepth : depth ≤ 512 := h.depth_le.trans (Digest.firstDifference_le _ _)
  induction hDepth using Nat.decreasingInduction with
  | self => exact absurd (Digest.firstDifference_lt_iff.mpr h.foreign) (Nat.not_lt.mpr h.depth_le)
  | of_succ depth hLt ih =>
    rw [foldInputs_drop _ _ hLt, climbInputs]
    by_cases hLeaf : depth = key.firstDifference path.leafKey
    · have hNothing : (start key .empty).digest = .empty := rfl
      rw [foldInputs_of_quiet (h.quiet hLt hLeaf), fold_of_quiet (h.quiet hLt hLeaf), if_pos hLeaf,
        if_pos hNothing, ← hLeaf, List.append_nil, List.append_nil]
    · have hFloats := h.siblings ⟨depth, hLt⟩ (Nat.le_refl depth) hLeaf
      rw [ih (h.succ hLeaf), fold_of_lone (h.succ hLeaf), if_neg hLeaf, ascendInputs,
        if_pos ⟨hFloats, rfl⟩, List.nil_append]

theorem siblings_of_fold_eq_empty (hInputs : Digest.Collisionless inputs) {depth : Nat}
    (hDepth : depth ≤ 512) (hLeaf : key.firstDifference path.leafKey < depth)
    (hFold : path.foldInputs key (levels.drop depth) (start key .empty) ⊆ inputs)
    (hEmpty : (path.fold key (levels.drop depth) (start key .empty)).digest = .empty) :
    ∀ level : Fin 512, depth ≤ level.val → path.siblings.get level.val = .empty := by
  induction hDepth using Nat.decreasingInduction with
  | self => exact fun level h => absurd level.isLt (Nat.not_lt.mpr h)
  | of_succ depth hLt ih =>
    rw [foldInputs_drop _ _ hLt] at hFold
    obtain ⟨hClimb, hBelow⟩ := List.append_subset.mp hFold
    rw [fold_drop _ _ hLt] at hEmpty
    have hNe : depth ≠ key.firstDifference path.leafKey := Nat.ne_of_gt hLeaf
    have hBoth : (path.fold key (levels.drop (depth + 1)) (start key .empty)).digest = .empty ∧
        path.siblings.get depth = .empty := by
      generalize path.fold key (levels.drop (depth + 1)) (start key .empty) = r at *
      have hStep := path.climbed key ⟨depth, hLt⟩ r
      generalize path.climb key ⟨depth, hLt⟩ r = next at hStep hEmpty
      cases hStep with
      | adopt hAdopt => exact absurd hAdopt hNe
      | float _ hSibling => exact ⟨hEmpty, hSibling hNe⟩
      | join hHashed _ hSibling =>
        rw [hSibling hNe]
        exact (join_eq_empty_iff hInputs.nonempty (List.Subset.trans hHashed hClimb)).mp hEmpty
    intro level hLevel
    rcases Nat.eq_or_lt_of_le hLevel with hEq | hLt'
    · rw [← hEq]
      exact hBoth.2
    · exact ih (Nat.lt_succ_of_lt hLeaf) hBelow hBoth.1 level hLt'

theorem lone_of_isLeaf (hInputs : Digest.Collisionless inputs) {depth : Nat} (hDepth : depth ≤ 512)
    (hFold : path.foldInputs key (levels.drop depth) (start key .empty) ⊆ inputs)
    (hIsLeaf : (path.fold key (levels.drop depth) (start key .empty)).isLeaf) :
    Lone path key depth := by
  induction hDepth using Nat.decreasingInduction with
  | self =>
    rw [fold_drop_width] at hIsLeaf
    cases hIsLeaf
  | of_succ depth hLt ih =>
    rw [foldInputs_drop _ _ hLt] at hFold
    obtain ⟨hClimb, hBelow⟩ := List.append_subset.mp hFold
    have hQuiet := fun hLeaf : key.firstDifference path.leafKey < depth + 1 =>
      siblings_of_fold_eq_empty hInputs hLt hLeaf hBelow
    rw [fold_drop _ _ hLt] at hIsLeaf
    generalize path.fold key (levels.drop (depth + 1)) (start key .empty) = r at *
    have hStep := path.climbed key ⟨depth, hLt⟩ r
    generalize path.climb key ⟨depth, hLt⟩ r = next at hStep hIsLeaf
    cases hStep with
    | adopt hLeaf hEmpty =>
      have hLeaf : depth = key.firstDifference path.leafKey := hLeaf
      have hForeign : key.firstDifference path.leafKey < 512 := by
        rw [← hLeaf]
        exact hLt
      refine ⟨hLeaf.le, Digest.firstDifference_lt_iff.mp hForeign, fun level hLevel hNe => ?_⟩
      rw [← hLeaf] at hNe hQuiet
      exact hQuiet (Nat.lt_succ_self depth) hEmpty level (Nat.lt_of_le_of_ne hLevel (Ne.symm hNe))
    | float hFloat hSibling =>
      have hLone := ih hBelow hFloat
      exact hLone.of_succ (hSibling (Nat.ne_of_lt hLone.depth_le))
    | join => cases hIsLeaf

theorem fold_ne_leaf (hInputs : Digest.Collisionless inputs) {value : Digest}
    (hLeaf : Digest.hashed key value ⊆ inputs) (hKey : Digest.Fresh inputs key)
    (hValue : Digest.Fresh inputs value) {levels : List (Fin 512)}
    (hFold : path.foldInputs key levels (start key .empty) ⊆ inputs) :
    (path.fold key levels (start key .empty)).digest ≠ .combine key value := by
  induction levels with
  | nil => exact fun h => hValue.nonempty ((hInputs.combine_eq_empty_iff hLeaf).mp h.symm).2
  | cons level below ih =>
    obtain ⟨hClimb, hBelow⟩ := List.append_subset.mp hFold
    have hReached := ih hBelow
    have hFresh : ∀ x, Digest.Fresh inputs x →
        (path.fold key below (start key .empty)).digest ≠ x := fun x hx =>
      fold_ne_of_fresh hx hx.nonempty.symm hBelow
    change (path.climb key level (path.fold key below (start key .empty))).digest ≠ _
    generalize path.fold key below (start key .empty) = r at *
    have hStep := path.climbed key level r
    generalize path.climb key level r = next at hStep ⊢
    cases hStep with
    | adopt hLevel _ hHashed =>
      intro hEq
      obtain ⟨hSame, -⟩ := hInputs.combine_injective (List.Subset.trans hHashed hClimb) hLeaf hEq
      rw [hSame] at hLevel
      exact absurd hLevel (Digest.ne_firstDifference_self key level.isLt)
    | float => exact hReached
    | join hHashed =>
      exact join_ne_leaf hInputs (List.Subset.trans hHashed hClimb) hLeaf (hFresh key hKey)
        (hFresh value hValue)

/-! ## Hiding a bound key -/

theorem hashed_leaf_subset (path : AuditPath) (key : Digest) {level : Fin 512}
    {levels : List (Fin 512)} (hMem : level ∈ levels)
    (hLeaf : level.val = key.firstDifference path.leafKey) (r : Reached) :
    Digest.hashed path.leafKey (path.siblings.get level.val) ⊆ path.foldInputs key levels r := by
  induction levels with
  | nil => cases hMem
  | cons level' below ih =>
    rcases List.mem_cons.mp hMem with rfl | hMem
    · apply List.subset_append_of_subset_left
      rw [climbInputs, if_pos hLeaf]
      exact List.subset_append_left _ _
    · exact List.subset_append_of_subset_right _ (ih hMem)

/-- A path that hides a key commits the key with no value to the digest of the subtree. -/
theorem fold_eq_of_hides (hInputs : Digest.Collisionless inputs) {depth : Nat}
    (hDepth : depth ≤ 512) {t : Tree} (hCanonical : Canonical depth t)
    (hFold : path.foldInputs key (levels.drop depth) (start key .empty) ⊆ inputs)
    (hHides : Hides path key depth t) :
    (path.fold key (levels.drop depth) (start key .empty)).digest = t.digest := by
  induction hHides with
  | @leaf depth d zero one hLone hKey hSibling =>
    rw [fold_of_lone hLone, hSibling, hKey]
    cases hCanonical
    rfl
  | @step depth d zero one hLt hLone hSibling hBelow ih =>
    rw [foldInputs_drop _ _ hLt] at hFold
    have hBelowInputs := (List.append_subset.mp hFold).2
    have hReached := ih hLt (hCanonical.child _) hBelowInputs
    have hNe : depth ≠ key.firstDifference path.leafKey := Nat.ne_of_lt hBelow.depth_le
    -- A leaf that floats past this level would make the path lone from here on.
    have hJoins : ¬ (path.siblings.get depth = .empty ∧
        (path.fold key (levels.drop (depth + 1)) (start key .empty)).isLeaf) :=
      fun ⟨hNone, hIsLeaf⟩ => hLone ((lone_of_isLeaf hInputs hLt hBelowInputs hIsLeaf).of_succ hNone)
    rw [fold_drop _ _ hLt, Tree.digest, hCanonical.digest_eq_join key ⟨depth, hLt⟩, ← hReached,
      ← hSibling]
    generalize path.fold key (levels.drop (depth + 1)) (start key .empty) = r at *
    obtain ⟨leafKey, siblings⟩ := path
    rw [climb_of_ne siblings hNe, ascend, if_neg hJoins]

/-- A path that commits a bound key with no value to the digest of a subtree hides the key in it. -/
theorem hides_of_fold_eq (hInputs : Digest.Collisionless inputs) (hKey : Digest.Fresh inputs key)
    {value : Digest} (hValue : Digest.Fresh inputs value) {depth : Nat} (hDepth : depth ≤ 512)
    {t : Tree} (hCanonical : Canonical depth t) (hBound : (key, value) ∈ t.bindings)
    (hTree : t.inputs ⊆ inputs)
    (hFold : path.foldInputs key (levels.drop depth) (start key .empty) ⊆ inputs)
    (hEq : (path.fold key (levels.drop depth) (start key .empty)).digest = t.digest) :
    Hides path key depth t := by
  induction hDepth using Nat.decreasingInduction generalizing t with
  | self =>
    cases hCanonical with
    | empty => cases hBound
    | leaf =>
      cases List.mem_singleton.mp hBound
      exact absurd hEq (fold_ne_leaf hInputs hTree hKey hValue hFold)
    | branch hLt => exact absurd hLt (Nat.lt_irrefl 512)
  | of_succ depth hLt ih =>
    cases t with
    | empty => cases hBound
    | leaf k v =>
      cases List.mem_singleton.mp hBound
      exact absurd hEq (fold_ne_leaf hInputs hTree hKey hValue hFold)
    | branch d zero one =>
      -- Either the leaf of the path passes for this branch, or the fold has joined here and the two sides
      -- can be told apart.
      by_cases hLone : Lone path key depth
      · obtain ⟨level, hLevel⟩ := Digest.exists_level hLone.foreign
        have hMem : level ∈ levels.drop depth := by
          rw [mem_levels_drop hLt.le, hLevel]
          exact hLone.depth_le
        have hLeaf := List.Subset.trans (hashed_leaf_subset path key hMem hLevel _) hFold
        rw [fold_of_lone hLone, ← hLevel] at hEq
        cases hCanonical with
        | branch =>
          obtain ⟨hBranch, -⟩ := List.append_subset.mp hTree
          obtain ⟨hZero, hOne⟩ := hInputs.combine_injective hLeaf hBranch hEq
          rw [hLevel] at hOne
          exact .leaf hLone hZero hOne
      · have hNotLeaf := fun h => hLone (lone_of_isLeaf hInputs hLt.le hFold h)
        rw [foldInputs_drop _ _ hLt] at hFold
        obtain ⟨hClimb, hBelow⟩ := List.append_subset.mp hFold
        have hNear := ih (hCanonical.child (key.bit ⟨depth, hLt⟩))
          ((hCanonical.mem_child_bindings hLt _ _).mpr ⟨hBound, rfl⟩)
          (List.Subset.trans (inputs_child_subset _ d zero one) hTree) hBelow
        rw [fold_drop _ _ hLt] at hEq hNotLeaf
        generalize path.fold key (levels.drop (depth + 1)) (start key .empty) = r at *
        have hStep := path.climbed key ⟨depth, hLt⟩ r
        generalize path.climb key ⟨depth, hLt⟩ r = next at hStep hEq hNotLeaf
        cases hStep with
        | adopt => exact absurd rfl hNotLeaf
        | float hFloat => exact absurd hFloat hNotLeaf
        | join hHashed _ hSibling =>
          rw [Tree.digest, hCanonical.digest_eq_join key ⟨depth, hLt⟩] at hEq
          obtain ⟨hDigest, hFar⟩ := join_injective hInputs (List.Subset.trans hHashed hClimb)
            (List.Subset.trans (joinInputs_subset key ⟨depth, hLt⟩ d zero one) hTree) hEq
          have hHides := hNear hDigest
          have hNe : depth ≠ key.firstDifference path.leafKey := Nat.ne_of_lt hHides.depth_le
          exact .step hLt hLone ((hSibling hNe).trans hFar) hHides

end AuditPath

namespace Trie

section

variable [HashFunction]

theorem exists_forged {t : Trie} {key d : Digest} {zero one : Tree}
    (hTree : t.tree = .branch d zero one) (hCanonical : t.tree.Canonical 0) (hKey : key ≠ zero.digest) :
    ∃ forged : AuditPath, forged.inputs key .empty ⊆ t.tree.inputs ∧
      forged.root key .empty = t.root := by
  obtain ⟨level, hLevel⟩ := Digest.exists_level hKey
  have hLone : AuditPath.Lone ⟨zero.digest, Siblings.empty.put level one.digest⟩ key 0 := by
    refine ⟨Nat.zero_le _, hKey, fun level' _ hNe => ?_⟩
    rw [← hLevel] at hNe
    rw [Siblings.get_put, if_neg hNe, Siblings.get_empty]
  have hSibling : (Siblings.empty.put level one.digest).get (key.firstDifference zero.digest) =
      one.digest := by
    rw [← hLevel, Siblings.get_put, if_pos rfl]
  refine ⟨⟨zero.digest, Siblings.empty.put level one.digest⟩, ?_, ?_⟩
  · rw [AuditPath.inputs, if_pos rfl, List.nil_append, ← Tree.levels_drop_zero,
      AuditPath.foldInputs_of_lone hLone, hSibling, hTree]
    exact List.subset_append_left _ _
  · rw [AuditPath.root_eq, AuditPath.fold_of_lone hLone, hSibling, root, hTree]
    rw [hTree] at hCanonical
    cases hCanonical
    rfl

/-- A path shows a bound key absent exactly if it hides the key. There is such a path in every trie with
another key, and none in a trie of the key alone. -/
theorem Reachable.absence_iff {t : Trie} (h : t.Reachable) {path : AuditPath} {key value : Digest}
    (hBinds : t.Binds key value) (hIdeal : t.Ideal path key .empty) :
    (path.root key .empty = t.root ↔ path.Hides key 0 t.tree) ∧
      ((∃ other v, other ≠ key ∧ t.Binds other v) →
        ∃ forged : AuditPath, t.Ideal forged key .empty ∧ forged.root key .empty = t.root) ∧
      ((∀ other v, t.Binds other v → other = key) → path.root key .empty ≠ t.root) := by
  have hInputs : path.inputs key .empty ⊆ t.tree.inputs ++ path.inputs key .empty :=
    List.subset_append_right _ _
  have hFold := (List.append_subset.mp hInputs).2
  rw [← Tree.levels_drop_zero] at hFold
  have hBound := h.binds_iff.mp hBinds
  have hIff : path.root key .empty = t.root ↔ path.Hides key 0 t.tree := by
    rw [AuditPath.root_eq]
    constructor
    · exact AuditPath.hides_of_fold_eq hIdeal.collisionless hIdeal.key_fresh
        (hIdeal.stored_fresh _ hBound).2 (Nat.zero_le 512) h.canonical hBound
        (List.subset_append_left _ _) hFold
    · exact AuditPath.fold_eq_of_hides hIdeal.collisionless (Nat.zero_le 512) h.canonical hFold
  refine ⟨hIff, ?_, ?_⟩
  · rintro ⟨other, v, hNe, hOther⟩
    rw [h.binds_iff] at hOther
    cases hTree : t.tree with
    | empty =>
      rw [hTree] at hBound
      cases hBound
    | leaf k w =>
      rw [hTree] at hBound hOther
      cases List.mem_singleton.mp hBound
      cases List.mem_singleton.mp hOther
      exact absurd rfl hNe
    | branch d zero one =>
      have hCanonical := h.canonical
      have hZero := Tree.inputs_child_subset false d zero one
      rw [← hTree] at hZero
      rw [hTree] at hCanonical
      have hKey := Tree.digest_ne_of_fresh hIdeal.key_fresh (hCanonical.child false)
        (List.Subset.trans hZero (List.subset_append_left _ _))
      obtain ⟨forged, hForged, hRoot⟩ := exists_forged hTree h.canonical hKey.symm
      exact ⟨forged, hIdeal.of_subset hForged, hRoot⟩
  · intro hAlone hRoot
    obtain ⟨d, zero, one, hTree⟩ := (hIff.mp hRoot).eq_branch
    obtain ⟨a, ha, b, hb, hNe⟩ := h.canonical.exists_ne (by simp [hTree]) (by simp [hTree])
    have hKeys : a.1 = b.1 := (hAlone a.1 a.2 (h.binds_iff.mpr ha)).trans
      (hAlone b.1 b.2 (h.binds_iff.mpr hb)).symm
    exact hNe hKeys

end

/-- The digests of the two leaves of a trie of two keys, as the key and the value of a leaf that stands
at the root. -/
def forgedPath : AuditPath :=
  ⟨.combine (.filled 2) (.filled 3), Siblings.empty.put 0 (.combine (.filled 1) (.filled 4))⟩

theorem forgedPath_root_and_inputs : forgedPath.root (.filled 2) .empty = pair.root ∧
    forgedPath.inputs (.filled 2) .empty ⊆ pair.tree.inputs := by
  have hLeaf : Digest.firstDifference (.filled 2) (.combine (.filled 2) (.filled 3)) = 0 := by
    decide +kernel
  obtain ⟨hRoot, hInputs⟩ := AuditPath.root_of_top hLeaf (.combine (.filled 1) (.filled 4)) .empty
  rw [forgedPath, hRoot, hInputs]
  decide +kernel

theorem binds_filled_two : pair.Binds (.filled 2) (.filled 3) :=
  reachable_pair.binds_iff.mpr (by decide +kernel)

theorem ideal_forgedPath : pair.Ideal forgedPath (.filled 2) .empty :=
  ideal_pair (v := .filled 3) (by decide +kernel) forgedPath_root_and_inputs.2

theorem root_eq_of_forgedPath : Reachable pair ∧ pair.Binds (.filled 2) (.filled 3) ∧
    pair.Ideal forgedPath (.filled 2) .empty ∧ forgedPath.root (.filled 2) .empty = pair.root :=
  ⟨reachable_pair, binds_filled_two, ideal_forgedPath, forgedPath_root_and_inputs.1⟩

theorem hides_of_forgedPath : forgedPath.Hides (.filled 2) 0 pair.tree ∧
    ∃ forged : AuditPath, pair.Ideal forged (.filled 2) .empty ∧
      forged.root (.filled 2) .empty = pair.root := by
  obtain ⟨hIff, hExists, -⟩ := reachable_pair.absence_iff binds_filled_two ideal_forgedPath
  refine ⟨hIff.mp forgedPath_root_and_inputs.1, hExists ⟨.filled 1, .filled 4, by decide +kernel, ?_⟩⟩
  exact reachable_pair.binds_iff.mpr (by decide +kernel)

end Trie

end SignedDirectory
