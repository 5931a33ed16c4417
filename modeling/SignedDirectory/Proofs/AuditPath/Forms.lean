import SignedDirectory.Proofs.AuditPath.Inputs
import SignedDirectory.Proofs.AuditPath.Siblings

/-!
# Other forms of a path

A path that ends at a foreign leaf can be written in other ways. For a key with a value, the leaf may as well
stand among the siblings with its digest (`root_expanded`), unless what is reached below it is empty; the
fold never reaches the empty digest if it hashes nothing to it (`fold_ne_empty`). For a key without a value,
the path is one of the leaf itself, which is what an absence shows (`root_empty_eq_root_leaf`).

Both are said level by level: the two folds do the same below the leaf and above it, and at the level of the
leaf they come to the same place.
-/

namespace SignedDirectory

namespace Siblings

/-- The siblings at the levels above a depth. -/
def above (s : Siblings) (depth : Nat) : Siblings where
  stored := ⟨s.toList.filter fun b => b.1 < depth, s.stored.ascending.filter _⟩
  stored_level b hb := s.stored_level b (List.mem_filter.mp hb).1

theorem get_above (s : Siblings) (depth depth' : Nat) :
    (s.above depth).get depth' = if depth' < depth then s.get depth' else .empty := by
  have hMem (digest : Digest) : (s.above depth).stored.get? depth' = some digest ↔
      s.stored.get? depth' = some digest ∧ depth' < depth := by
    rw [SortedMap.get?_eq_some_iff, SortedMap.get?_eq_some_iff]
    exact List.mem_filter.trans (and_congr_right fun _ => decide_eq_true_iff)
  have hFound : (s.above depth).stored.get? depth' =
      if depth' < depth then s.stored.get? depth' else none := by
    apply Option.ext
    intro digest
    rw [hMem]
    split <;> simp [*]
  rw [get, hFound]
  split <;> rfl

end Siblings

namespace AuditPath

open SignedDirectory.Tree

/-! ## Parts of folds -/

section

variable [HashFunction]

theorem foldInputs_subset_append (path : AuditPath) (key : Digest) (above below : List (Fin 512))
    (r : Reached) : path.foldInputs key below r ⊆ path.foldInputs key (above ++ below) r := by
  induction above with
  | nil => exact List.Subset.refl _
  | cons level above ih => exact List.subset_append_of_subset_right _ ih

/-- The fold for a key with a value has reached something at every level. -/
theorem fold_drop_ne_empty {path : AuditPath} {key value : Digest} (hValue : value ≠ .empty)
    (hInputs : ∀ p ∈ path.inputs key value, Digest.ofPair p ≠ .empty) (depth : Nat) :
    (path.fold key (levels.drop depth) (start key value)).digest ≠ .empty := by
  have hHashed : Digest.hashed key value ++ path.foldInputs key levels (start key value) ⊆
      path.inputs key value := by
    rw [inputs, if_neg hValue]
    exact List.Subset.refl _
  obtain ⟨hFirst, hFold⟩ := List.append_subset.mp hHashed
  have hDrop := path.foldInputs_subset_append key (levels.take depth) (levels.drop depth)
    (start key value)
  rw [List.take_append_drop] at hDrop
  exact fold_ne_empty hInputs (start_ne_empty hInputs hValue hFirst) (List.Subset.trans hDrop hFold)

end

/-- Folds that come to the same place at a depth and climb alike above it reach the same root. -/
theorem root_eq_root_of_above [HashFunction] {path path' : AuditPath}
    {key key' value value' : Digest} (depth : Nat)
    (hBelow : path.fold key (levels.drop depth) (start key value) =
      path'.fold key' (levels.drop depth) (start key' value'))
    (hAbove : ∀ level : Fin 512, level.val < depth → ∀ r,
      path.climb key level r = path'.climb key' level r) :
    path.root key value = path'.root key' value' := by
  rw [root_eq, root_eq, levels_drop_zero, fold_levels path key depth, fold_levels path' key' depth,
    hBelow]
  refine congrArg Reached.digest (List.foldr_ext _ _ _ fun level hLevel r => ?_)
  exact hAbove level (lt_of_mem_levels_take hLevel) r

/-! ## The leaf among the siblings -/

/-- The path to the key itself that has, at the level of the leaf, the digest of the leaf. -/
def expanded [HashFunction] (path : AuditPath) (key : Digest) (level : Fin 512) : AuditPath :=
  ⟨key, path.siblings.put level (.combine path.leafKey (path.siblings.get level))⟩

section

variable [HashFunction] {path : AuditPath} {key value : Digest} {level : Fin 512}

theorem climb_expanded_of_ne (hLeaf : key.firstDifference path.leafKey = level) {level' : Fin 512}
    (hNe : level' ≠ level) (r : Reached) :
    path.climb key level' r = (path.expanded key level).climb key level' r := by
  have hVal : level'.val ≠ level.val := Fin.val_ne_of_ne hNe
  have hForeign : level'.val ≠ key.firstDifference path.leafKey := by
    rw [hLeaf]
    exact hVal
  obtain ⟨leafKey, siblings⟩ := path
  rw [expanded, climb_of_ne _ hForeign, climb_of_ne _ (Digest.ne_firstDifference_self key level'.isLt),
    Siblings.get_put, if_neg hVal]

theorem climb_expanded (hLeaf : key.firstDifference path.leafKey = level) {r : Reached}
    (hReached : r.digest ≠ .empty) :
    path.climb key level r = (path.expanded key level).climb key level r := by
  obtain ⟨leafKey, siblings⟩ := path
  rw [expanded, climb_of_eq _ hLeaf.symm, if_neg hReached,
    climb_of_ne _ (Digest.ne_firstDifference_self key level.isLt), Siblings.get_put, if_pos rfl]

/-- A path commits a key with a value to the same root whether its leaf stands there with its key and its
value or among the siblings with its digest. -/
theorem root_expanded (hLeaf : key.firstDifference path.leafKey = level) (hValue : value ≠ .empty)
    (hInputs : ∀ p ∈ path.inputs key value, Digest.ofPair p ≠ .empty) :
    path.root key value = (path.expanded key level).root key value := by
  apply root_eq_root_of_above level.val
  · have hBelow : path.fold key (levels.drop (level + 1)) (start key value) =
        (path.expanded key level).fold key (levels.drop (level + 1)) (start key value) := by
      refine List.foldr_ext _ _ _ fun level' hLevel r => climb_expanded_of_ne hLeaf ?_ r
      exact Fin.ne_of_gt ((mem_levels_drop level.isLt).mp hLevel)
    rw [fold_drop _ _ level.isLt, fold_drop _ _ level.isLt, ← hBelow]
    exact climb_expanded hLeaf (fold_drop_ne_empty hValue hInputs (level + 1))
  · exact fun level' hLevel r => climb_expanded_of_ne hLeaf (Fin.ne_of_lt hLevel) r

end

/-- A path whose leaf stands at the second level, with a sibling above it. -/
def forkedPath : AuditPath :=
  ⟨.filled 3, (Siblings.empty.put ⟨0, by decide⟩ (.filled 5)).put ⟨1, by decide⟩ (.filled 7)⟩

theorem firstDifference_forkedPath :
    Digest.firstDifference (.filled 1) forkedPath.leafKey = (1 : Fin 512) := by decide +kernel

theorem get_forkedPath {depth : Nat} (h : 1 < depth) : forkedPath.siblings.get depth = .empty := by
  have hNonzero : 0 < depth := Nat.lt_trans Nat.zero_lt_one h
  rw [forkedPath, Siblings.get_put, Siblings.get_put]
  exact (if_neg (Nat.ne_of_gt h)).trans (if_neg (Nat.ne_of_gt hNonzero))

/-- Below the leaf there is nothing to take up. -/
theorem quiet_forkedPath : ∀ level ∈ levels.drop 2, forkedPath.siblings.get level.val = .empty ∧
    level.val ≠ Digest.firstDifference (.filled 1) forkedPath.leafKey :=
  quiet_below (by decide) firstDifference_forkedPath fun _ => get_forkedPath

theorem root_forkedPath (value : Digest) : forkedPath.root (.filled 1) value =
    (forkedPath.climb (.filled 1) 0 (forkedPath.climb (.filled 1) 1 (start (.filled 1) value))).digest := by
  rw [root_eq, fold_drop _ _ (by decide), fold_drop _ _ (by decide), fold_of_quiet quiet_forkedPath]
  rfl

theorem root_expanded_forkedPath :
    forkedPath.root (.filled 1) (.filled 4) =
        root ⟨.filled 1, forkedPath.siblings.put 1 (.combine (.filled 3) (.filled 7))⟩ (.filled 1)
          (.filled 4) ∧
      forkedPath.root (.filled 1) (.filled 4) = .combine (.filled 5)
        (.combine (.combine (.filled 1) (.filled 4)) (.combine (.filled 3) (.filled 7))) := by
  constructor
  · have hInputs : ∀ p ∈ forkedPath.inputs (.filled 1) (.filled 4), Digest.ofPair p ≠ .empty := by
      rw [inputs, ← levels_drop_zero, foldInputs_drop _ _ (by decide), fold_drop _ _ (by decide),
        foldInputs_drop _ _ (by decide), fold_of_quiet quiet_forkedPath,
        foldInputs_of_quiet quiet_forkedPath]
      decide +kernel
    have hSibling : forkedPath.siblings.get (1 : Fin 512) = .filled 7 := by decide +kernel
    have hRoot := root_expanded firstDifference_forkedPath (by decide +kernel) hInputs
    rwa [expanded, hSibling] at hRoot
  · rw [root_forkedPath]
    decide +kernel

/-! ## The path of the leaf -/

/-- A path without a value for its key commits to the root to which its leaf commits with its own value. The
path of the leaf has the siblings above the level at which the leaf stands. -/
theorem root_empty_eq_root_leaf [HashFunction] {path : AuditPath} {key : Digest} {level : Fin 512}
    (hLeaf : key.firstDifference path.leafKey = level)
    (hValue : path.siblings.get level ≠ .empty)
    (hDeepest : ∀ depth, level.val < depth → path.siblings.get depth = .empty) :
    path.root key .empty =
      root ⟨path.leafKey, path.siblings.above level⟩ path.leafKey (path.siblings.get level) := by
  obtain ⟨leafKey, siblings⟩ := path
  apply root_eq_root_of_above level.val
  · -- From nothing the fold takes up the leaf, and the leaf is what the other fold starts from.
    have hQuiet := quiet_below level.isLt hLeaf fun level' => hDeepest level'.val
    have hQuiet' : ∀ level' ∈ levels.drop level, (siblings.above level).get level'.val = .empty ∧
        level'.val ≠ leafKey.firstDifference leafKey := by
      intro level' hMem
      have hBelow : level.val ≤ level'.val := (mem_levels_drop level.isLt.le).mp hMem
      refine ⟨?_, Digest.ne_firstDifference_self leafKey level'.isLt⟩
      rw [Siblings.get_above, if_neg (Nat.not_lt.mpr hBelow)]
    rw [fold_drop _ _ level.isLt, fold_of_quiet hQuiet, fold_of_quiet hQuiet',
      climb_of_eq _ hLeaf.symm, start, start, if_pos rfl, if_pos rfl, if_neg hValue]
  · intro level' hLevel r
    have hBit : key.bit level' = leafKey.bit level' := by
      apply Digest.bit_eq_of_lt_firstDifference
      rw [hLeaf]
      exact hLevel
    have hForeign : level'.val ≠ key.firstDifference leafKey := by
      rw [hLeaf]
      exact Nat.ne_of_lt hLevel
    rw [climb_of_ne _ hForeign, climb_of_ne _ (Digest.ne_firstDifference_self leafKey level'.isLt),
      Siblings.get_above, if_pos hLevel, ascend, ascend, join, join, hBit]

theorem root_leaf_forkedPath :
    forkedPath.root (.filled 1) .empty =
        root ⟨.filled 3, forkedPath.siblings.above 1⟩ (.filled 3) (.filled 7) ∧
      forkedPath.root (.filled 1) .empty =
        .combine (.filled 5) (.combine (.filled 3) (.filled 7)) := by
  constructor
  · have hSibling : forkedPath.siblings.get (1 : Fin 512) = .filled 7 := by decide +kernel
    have hRoot := root_empty_eq_root_leaf firstDifference_forkedPath (by decide +kernel) fun _ =>
      get_forkedPath
    rwa [hSibling] at hRoot
  · rw [root_forkedPath]
    decide +kernel

end AuditPath

end SignedDirectory
