import SignedDirectory.Proofs.AuditPath.Inputs
import SignedDirectory.Proofs.AuditPath.Siblings

/-!
# Tampering

Whatever an audit path holds, its root depends on all of it. Two paths that end at the same leaf and have
siblings at the same levels fold in lockstep: at every level both have reached something or neither has,
and both hold a lone leaf or neither does (`Alike`). So they do the same at each level, and where that
leads to the same digest, the siblings there and what was reached below are the same too.
-/

namespace SignedDirectory

namespace AuditPath

section

variable [HashFunction]

/-- Two folds have come to the same kind of place: to nothing, to a lone leaf, or to another subtree. -/
structure Alike (r r' : Reached) : Prop where
  empty_iff : r.digest = .empty ↔ r'.digest = .empty
  isLeaf_eq : r.isLeaf = r'.isLeaf

/-- From `r` and `r'` one step leads to `next` and `next'`, over `s` and `s'`: they are alike again, and
they are the same only if everything that led to them is. -/
structure Lockstep (s s' : Digest) (r r' next next' : Reached) : Prop where
  alike : Alike next next'
  eq_of_digest : next.digest = next'.digest → r.digest = r'.digest ∧ s = s'

variable {inputs : List (Digest × Digest)} {key s s' : Digest} {level : Fin 512} {r r' : Reached}

theorem ascend_lockstep (h : Digest.Collisionless inputs) (hAlike : Alike r r')
    (hSiblings : s = .empty ↔ s' = .empty) (hInputs : ascendInputs key level s r ⊆ inputs)
    (hInputs' : ascendInputs key level s' r' ⊆ inputs) :
    Lockstep s s' r r' (ascend key level s r) (ascend key level s' r') := by
  have hFloats : s = .empty ∧ r.isLeaf ↔ s' = .empty ∧ r'.isLeaf := by
    rw [hSiblings, hAlike.isLeaf_eq]
  by_cases hFloat : s = .empty ∧ r.isLeaf
  · rw [ascend, ascend, if_pos hFloat, if_pos (hFloats.mp hFloat)]
    exact ⟨hAlike, fun hEq => ⟨hEq, hFloat.1.trans (hFloats.mp hFloat).1.symm⟩⟩
  · have hFloat' := hFloats.not.mp hFloat
    rw [ascendInputs, if_neg hFloat] at hInputs
    rw [ascendInputs, if_neg hFloat'] at hInputs'
    rw [ascend, ascend, if_neg hFloat, if_neg hFloat']
    refine ⟨⟨?_, rfl⟩, join_injective h hInputs hInputs'⟩
    rw [join_eq_empty_iff h.nonempty hInputs, join_eq_empty_iff h.nonempty hInputs', hAlike.empty_iff, hSiblings]

theorem climb_lockstep {leafKey : Digest} {siblings siblings' : Siblings}
    (h : Digest.Collisionless inputs) (hAlike : Alike r r')
    (hSiblings : siblings.get level = .empty ↔ siblings'.get level = .empty)
    (hInputs : climbInputs ⟨leafKey, siblings⟩ key level r ⊆ inputs)
    (hInputs' : climbInputs ⟨leafKey, siblings'⟩ key level r' ⊆ inputs) :
    Lockstep (siblings.get level) (siblings'.get level) r r'
      (climb ⟨leafKey, siblings⟩ key level r) (climb ⟨leafKey, siblings'⟩ key level r') := by
  by_cases hLeaf : level.val = key.firstDifference leafKey
  · rw [climb_of_eq siblings hLeaf, climb_of_eq siblings' hLeaf]
    rw [climbInputs, if_pos hLeaf] at hInputs hInputs'
    obtain ⟨hHashed, hInputs⟩ := List.append_subset.mp hInputs
    obtain ⟨hHashed', hInputs'⟩ := List.append_subset.mp hInputs'
    have hLeaves : Digest.combine leafKey (siblings.get level) = .empty ↔
        Digest.combine leafKey (siblings'.get level) = .empty := by
      rw [h.combine_eq_empty_iff hHashed, h.combine_eq_empty_iff hHashed', hSiblings]
    by_cases hEmpty : r.digest = .empty
    · -- Both folds take up the leaf of the path.
      have hEmpty' := hAlike.empty_iff.mp hEmpty
      rw [if_pos hEmpty, if_pos hEmpty']
      refine ⟨⟨hLeaves, rfl⟩, fun hEq => ⟨hEmpty.trans hEmpty'.symm, ?_⟩⟩
      exact (h.combine_injective hHashed hHashed' hEq).2
    · have hEmpty' := hAlike.empty_iff.not.mp hEmpty
      rw [if_neg hEmpty] at hInputs ⊢
      rw [if_neg hEmpty'] at hInputs' ⊢
      obtain ⟨hNext, hSame⟩ := ascend_lockstep h hAlike hLeaves hInputs hInputs'
      refine ⟨hNext, fun hEq => (hSame hEq).imp_right fun hLeafEq => ?_⟩
      exact (h.combine_injective hHashed hHashed' hLeafEq).2
  · rw [climb_of_ne siblings hLeaf, climb_of_ne siblings' hLeaf]
    rw [climbInputs, if_neg hLeaf] at hInputs hInputs'
    exact ascend_lockstep h hAlike hSiblings hInputs hInputs'

/-- Folds in lockstep reach the same digest only from the same start and over the same siblings. -/
theorem fold_lockstep {leafKey : Digest} {siblings siblings' : Siblings}
    (h : Digest.Collisionless inputs)
    (hSiblings : ∀ depth, siblings.get depth = .empty ↔ siblings'.get depth = .empty)
    (hAlike : Alike r r') {levels : List (Fin 512)}
    (hInputs : foldInputs ⟨leafKey, siblings⟩ key levels r ⊆ inputs)
    (hInputs' : foldInputs ⟨leafKey, siblings'⟩ key levels r' ⊆ inputs) :
    Alike (fold ⟨leafKey, siblings⟩ key levels r) (fold ⟨leafKey, siblings'⟩ key levels r') ∧
      ((fold ⟨leafKey, siblings⟩ key levels r).digest =
          (fold ⟨leafKey, siblings'⟩ key levels r').digest →
        r.digest = r'.digest ∧ ∀ level ∈ levels, siblings.get level.val = siblings'.get level.val) := by
  induction levels with
  | nil => exact ⟨hAlike, fun hEq => ⟨hEq, by simp⟩⟩
  | cons level below ih =>
    -- The first level of the list is the last one that is climbed.
    obtain ⟨hClimb, hBelow⟩ := List.append_subset.mp hInputs
    obtain ⟨hClimb', hBelow'⟩ := List.append_subset.mp hInputs'
    obtain ⟨hReached, hSame⟩ := ih hBelow hBelow'
    obtain ⟨hNext, hStep⟩ := climb_lockstep h hReached (hSiblings level) hClimb hClimb'
    refine ⟨hNext, fun hEq => ?_⟩
    obtain ⟨hDigest, hSibling⟩ := hStep hEq
    obtain ⟨hStart, hRest⟩ := hSame hDigest
    exact ⟨hStart, List.forall_mem_cons.mpr ⟨hSibling, hRest⟩⟩

theorem start_lockstep (h : Digest.Collisionless inputs) {value value' : Digest}
    (hEmpty : value = .empty ↔ value' = .empty)
    (hInputs : (if value = .empty then [] else Digest.hashed key value) ⊆ inputs)
    (hInputs' : (if value' = .empty then [] else Digest.hashed key value') ⊆ inputs) :
    Alike (start key value) (start key value') ∧
      ((start key value).digest = (start key value').digest → value = value') := by
  by_cases hValue : value = .empty
  · obtain rfl := hValue
    obtain rfl := hEmpty.mp rfl
    exact ⟨⟨Iff.rfl, rfl⟩, fun _ => rfl⟩
  · have hValue' := hEmpty.not.mp hValue
    rw [if_neg hValue] at hInputs
    rw [if_neg hValue'] at hInputs'
    rw [start, start, if_neg hValue, if_neg hValue']
    refine ⟨⟨?_, rfl⟩, fun hEq => (h.combine_injective hInputs hInputs' hEq).2⟩
    rw [h.combine_eq_empty_iff hInputs, h.combine_eq_empty_iff hInputs', hEmpty]

/-- Of the paths to one leaf with siblings at the same levels, only one commits the key to a root, and
with one value only. -/
theorem root_eq_root_iff {path path' : AuditPath} {key value value' : Digest}
    (hLeafKey : path.leafKey = path'.leafKey)
    (hStored : ∀ depth, path.siblings.get depth = .empty ↔ path'.siblings.get depth = .empty)
    (hEmpty : value = .empty ↔ value' = .empty)
    (hInputs : Digest.Collisionless (path.inputs key value ++ path'.inputs key value')) :
    path.root key value = path'.root key value' ↔ value = value' ∧ path = path' := by
  constructor
  · intro hRoot
    obtain ⟨leafKey, siblings⟩ := path
    obtain ⟨leafKey', siblings'⟩ := path'
    obtain rfl : leafKey = leafKey' := hLeafKey
    obtain ⟨hFirst, hFold⟩ := List.append_subset.mp (List.subset_append_left
      (inputs ⟨leafKey, siblings⟩ key value) (inputs ⟨leafKey, siblings'⟩ key value'))
    obtain ⟨hFirst', hFold'⟩ := List.append_subset.mp (List.subset_append_right
      (inputs ⟨leafKey, siblings⟩ key value) (inputs ⟨leafKey, siblings'⟩ key value'))
    obtain ⟨hAlike, hStart⟩ := start_lockstep hInputs hEmpty hFirst hFirst'
    obtain ⟨-, hSame⟩ := fold_lockstep hInputs hStored hAlike hFold hFold'
    obtain ⟨hDigest, hSiblings⟩ := hSame hRoot
    have hEq : siblings = siblings' :=
      Siblings.ext_get fun level => hSiblings level (List.mem_finRange level)
    exact ⟨hStart hDigest, by rw [hEq]⟩
  · rintro ⟨rfl, rfl⟩
    rfl

end

theorem root_ne_of_replaced_sibling :
    root ⟨.filled 2, Siblings.empty.put 0 (.filled 3)⟩ (.filled 1) (.filled 4) ≠
      root ⟨.filled 2, Siblings.empty.put 0 (.filled 5)⟩ (.filled 1) (.filled 4) := by
  have hLeaf : Digest.firstDifference (.filled 1) (.filled 2) = 0 := by decide +kernel
  have hStored : ∀ depth, (Siblings.empty.put 0 (.filled 3)).get depth = .empty ↔
      (Siblings.empty.put 0 (.filled 5)).get depth = .empty := by
    intro depth
    rw [Siblings.get_put, Siblings.get_put]
    split
    · decide +kernel
    · exact Iff.rfl
  have hInputs : Digest.Collisionless
      (inputs ⟨.filled 2, Siblings.empty.put 0 (.filled 3)⟩ (.filled 1) (.filled 4) ++
        inputs ⟨.filled 2, Siblings.empty.put 0 (.filled 5)⟩ (.filled 1) (.filled 4)) := by
    rw [(root_of_top hLeaf _ _).2, (root_of_top hLeaf _ _).2]
    decide +kernel
  refine (root_eq_root_iff ?_ hStored Iff.rfl hInputs).not.mpr fun hSame => ?_
  · rfl
  · have hSibling := congrArg (fun path : AuditPath => path.siblings.get 0) hSame.2
    exact absurd hSibling (by decide +kernel)

end AuditPath

end SignedDirectory
