import Mathlib.Data.Fin.Basic
import SignedDirectory.Trie

/-!
# Levels

Tries and folds both walk the list of all levels. This module takes that list apart one level at a
time, from a depth on, and says what a fold does with the level it has taken.
-/

namespace SignedDirectory

namespace Tree

theorem finRange_drop {width depth : Nat} (h : depth < width) :
    (List.finRange width).drop depth = ⟨depth, h⟩ :: (List.finRange width).drop (depth + 1) := by
  have hLength : depth < (List.finRange width).length := by
    rw [List.length_finRange]
    exact h
  rw [List.drop_eq_getElem_cons hLength, List.getElem_finRange]
  rfl

theorem levels_drop {depth : Nat} (h : depth < 512) :
    levels.drop depth = ⟨depth, h⟩ :: levels.drop (depth + 1) := finRange_drop h

theorem levels_drop_width : levels.drop 512 = [] := by
  apply List.drop_eq_nil_of_le
  rw [levels, List.length_finRange]

theorem levels_drop_zero : levels.drop 0 = levels := List.drop_zero

theorem mem_levels_drop {depth : Nat} (hDepth : depth ≤ 512) {level : Fin 512} :
    level ∈ levels.drop depth ↔ depth ≤ level.val := by
  induction hDepth using Nat.decreasingInduction with
  | self =>
    rw [levels_drop_width]
    exact ⟨fun h => absurd h List.not_mem_nil, fun h => absurd h (Nat.not_le.mpr level.isLt)⟩
  | of_succ depth hLt ih =>
    rw [levels_drop hLt, List.mem_cons, ih, Fin.ext_iff]
    change level.val = depth ∨ depth + 1 ≤ level.val ↔ depth ≤ level.val
    omega

theorem finRange_take_succ {width depth : Nat} (h : depth < width) :
    (List.finRange width).take (depth + 1) = (List.finRange width).take depth ++ [⟨depth, h⟩] := by
  have hLength : depth < (List.finRange width).length := by
    rw [List.length_finRange]
    exact h
  rw [List.take_add_one, List.getElem?_eq_getElem hLength, List.getElem_finRange]
  rfl

theorem lt_of_mem_finRange_take {width depth : Nat} {level : Fin width}
    (h : level ∈ (List.finRange width).take depth) : level.val < depth := by
  obtain ⟨i, hi, rfl⟩ := List.mem_take_iff_getElem.mp h
  rw [List.getElem_finRange]
  exact (Nat.lt_min.mp hi).1

theorem levels_take_succ {depth : Nat} (h : depth < 512) :
    levels.take (depth + 1) = levels.take depth ++ [⟨depth, h⟩] := finRange_take_succ h

theorem levels_take_drop {depth bound : Nat} (hDepth : depth < 512) (hBound : depth < bound) :
    (levels.take bound).drop depth = ⟨depth, hDepth⟩ :: (levels.take bound).drop (depth + 1) := by
  have hLength : bound - depth = bound - (depth + 1) + 1 := by omega
  rw [List.drop_take, List.drop_take, levels_drop hDepth, hLength, List.take_succ_cons]

theorem lt_of_mem_levels_take {depth : Nat} {level : Fin 512} (h : level ∈ levels.take depth) :
    level.val < depth := lt_of_mem_finRange_take h

end Tree

theorem Siblings.get_empty (depth : Nat) : Siblings.empty.get depth = .empty := rfl

namespace AuditPath

open SignedDirectory.Tree

variable [HashFunction]

theorem climb_of_ne {leafKey key : Digest} (siblings : Siblings) {level : Fin 512}
    (h : level.val ≠ key.firstDifference leafKey) (r : Reached) :
    climb ⟨leafKey, siblings⟩ key level r = ascend key level (siblings.get level) r := if_neg h

theorem climb_of_eq {leafKey key : Digest} (siblings : Siblings) {level : Fin 512}
    (h : level.val = key.firstDifference leafKey) (r : Reached) :
    climb ⟨leafKey, siblings⟩ key level r =
      if r.digest = .empty then ⟨.combine leafKey (siblings.get level), true⟩
      else ascend key level (.combine leafKey (siblings.get level)) r := if_pos h

theorem fold_drop (path : AuditPath) (key : Digest) {depth : Nat} (hDepth : depth < 512)
    (r : Reached) : path.fold key (levels.drop depth) r =
      path.climb key ⟨depth, hDepth⟩ (path.fold key (levels.drop (depth + 1)) r) := by
  rw [levels_drop hDepth]
  rfl

theorem fold_drop_width (path : AuditPath) (key : Digest) (r : Reached) :
    path.fold key (levels.drop 512) r = r := by
  rw [levels_drop_width]
  rfl

/-- A fold climbs the levels below a depth first, and then those above it. -/
theorem fold_levels (path : AuditPath) (key : Digest) (depth : Nat) (r : Reached) :
    path.fold key levels r =
      path.fold key (levels.take depth) (path.fold key (levels.drop depth) r) := by
  rw [fold, fold, fold, ← List.foldr_append, List.take_append_drop]

theorem root_eq (path : AuditPath) (key value : Digest) :
    path.root key value = (path.fold key (levels.drop 0) (start key value)).digest := by
  rw [levels_drop_zero]
  rfl

omit [HashFunction] in
/-- Below the leaf of a path there is no other leaf, and no sibling if the leaf is the deepest. -/
theorem quiet_below {path : AuditPath} {key : Digest} {depth : Nat} (hDepth : depth < 512)
    (hLeaf : key.firstDifference path.leafKey = depth)
    (hDeepest : ∀ level : Fin 512, depth < level.val → path.siblings.get level.val = .empty) :
    ∀ level ∈ levels.drop (depth + 1), path.siblings.get level.val = .empty ∧
      level.val ≠ key.firstDifference path.leafKey := by
  intro level hLevel
  have hBelow : depth < level.val := (mem_levels_drop hDepth).mp hLevel
  rw [hLeaf]
  exact ⟨hDeepest level hBelow, Nat.ne_of_gt hBelow⟩

theorem fold_of_quiet {path : AuditPath} {key : Digest} {levels : List (Fin 512)}
    (hQuiet : ∀ level ∈ levels, path.siblings.get level.val = .empty ∧
      level.val ≠ key.firstDifference path.leafKey) (value : Digest) :
    path.fold key levels (start key value) = start key value := by
  induction levels with
  | nil => rfl
  | cons level below ih =>
    have hBelow := ih fun level' hLevel => hQuiet level' (List.mem_cons_of_mem _ hLevel)
    obtain ⟨hSibling, hLeaf⟩ := hQuiet level List.mem_cons_self
    change path.climb key level (path.fold key below (start key value)) = _
    obtain ⟨leafKey, siblings⟩ := path
    rw [hBelow, climb_of_ne siblings hLeaf, hSibling, start, ascend]
    by_cases hValue : value = .empty
    · simp [hValue, join, Digest.combine]
    · simp [hValue]

end AuditPath

end SignedDirectory
