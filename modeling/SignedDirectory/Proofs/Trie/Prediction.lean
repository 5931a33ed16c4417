import Mathlib.Data.List.Basic
import SignedDirectory.Proofs.Trie.Update

/-!
# Served paths predict updates

The path that a lookup serves commits, for any new value of its key, to the root that the trie has
after the update: each level of the fold does to what it has reached what the update does to the
subtree there. Only digests of nodes that are all zeros would break this, since the fold tells an
empty subtree by its digest.
-/

namespace SignedDirectory

namespace Tree

variable [HashFunction]

/-- The digests of the nodes of a subtree. -/
def digests : Tree → List Digest
  | .empty => []
  | .leaf key value => [.combine key value]
  | .branch digest zero one => digest :: (zero.digests ++ one.digests)

/-- What a fold should have reached at a subtree. -/
def reached (t : Tree) : AuditPath.Reached := ⟨t.digest, t.isLeaf⟩

theorem digest_mem_digests {t : Tree} (h : t ≠ .empty) : t.digest ∈ t.digests := by
  cases t with
  | empty => exact absurd rfl h
  | leaf => exact List.mem_singleton_self _
  | branch => exact List.mem_cons_self

theorem mem_digests_graft (side : Bool) {near far : Tree} {d : Digest}
    (h : d ∈ near.digests ∨ d ∈ far.digests) : d ∈ (graft side near far).digests := by
  have hMerge : ∀ zero one : Tree,
      d ∈ zero.digests ∨ d ∈ one.digests → d ∈ (merge zero one).digests := by
    intro zero one
    fun_cases merge zero one <;> simp_all [digests]
  cases side with
  | false => exact hMerge near far h
  | true => exact hMerge far near h.symm

theorem digest_ne_empty {t : Tree} (h : Digest.empty ∉ t.digests) (hNonempty : t ≠ .empty) :
    t.digest ≠ .empty := by
  intro hEmpty
  rw [← hEmpty] at h
  exact h (digest_mem_digests hNonempty)

end Tree

namespace AuditPath

open SignedDirectory.Tree

variable [HashFunction]

/-! ## One level of a fold against one level of a trie -/

theorem reached_graft {key : Digest} {level : Fin 512} {near far : Tree}
    (hNear : near.isLeaf → far ≠ .empty) (hFar : far.isLeaf → near ≠ .empty) :
    (graft (key.bit level) near far).reached = ⟨join key level near.digest far.digest, false⟩ := by
  unfold graft join
  cases key.bit level <;> cases near <;> cases far <;>
    simp_all [merge, reached, digest, isLeaf, Digest.combine]

theorem ascend_empty (key : Digest) (level : Fin 512) (near : Tree) :
    ascend key level .empty near.reached = (graft (key.bit level) near .empty).reached := by
  by_cases hLeaf : near.isLeaf
  · have hGraft : graft (key.bit level) near .empty = near := by
      cases near <;> cases hBit : key.bit level <;> simp_all [graft, merge, isLeaf]
    rw [ascend, if_pos ⟨rfl, hLeaf⟩, hGraft]
  · have hNear : near.isLeaf → Tree.empty ≠ .empty := fun h => absurd h hLeaf
    rw [ascend, if_neg fun h => hLeaf h.2, reached_graft hNear (by simp [isLeaf])]
    rfl

theorem ascend_digest {key : Digest} {level : Fin 512} {near : Tree} (far : Tree)
    (hFar : far.digest ≠ .empty) (hLone : far.isLeaf → near ≠ .empty) :
    ascend key level far.digest near.reached = (graft (key.bit level) near far).reached := by
  have hNonempty : far ≠ .empty := by
    rintro rfl
    exact hFar rfl
  rw [ascend, if_neg fun h => hFar h.1, reached_graft (fun _ => hNonempty) hLone]
  rfl

theorem climb_serve_of_lt {path : AuditPath} {key : Digest} (level : Fin 512) {below : Fin 512}
    {far : Tree} (hLevel : level.val < below.val)
    (hFar : ∀ k v, far = .leaf k v → key.firstDifference k = level) (r : Reached) :
    (serve key level far path).climb key below r = path.climb key below r := by
  obtain ⟨leafKey, siblings⟩ := path
  have hGet : ∀ d, (siblings.put level d).get below = siblings.get below := by
    intro d
    rw [Siblings.get_put, if_neg (Nat.ne_of_gt hLevel)]
  have hSame : ∀ d, climb ⟨leafKey, siblings.put level d⟩ key below r =
      climb ⟨leafKey, siblings⟩ key below r := by
    intro d
    rw [climb, climb, hGet]
  cases far with
  | empty => exact hSame _
  | branch => exact hSame _
  | leaf k v =>
    by_cases hKey : leafKey = key
    · have hAtLevel : below.val ≠ key.firstDifference k := by
        rw [hFar k v rfl]
        exact Nat.ne_of_gt hLevel
      have hAtWidth : below.val ≠ key.firstDifference leafKey := by
        rw [hKey]
        exact Digest.ne_firstDifference_self key below.isLt
      rw [serve, if_pos hKey, climb_of_ne _ hAtLevel, climb_of_ne _ hAtWidth, hGet]
    · rw [serve, if_neg hKey]
      exact hSame _

theorem climb_serve {path : AuditPath} {key : Digest} {level : Fin 512} {near far : Tree}
    (hEnd : level.val ≠ key.firstDifference path.leafKey)
    (hFar : ∀ k v, far = .leaf k v → key.firstDifference k = level)
    (hNearDigest : near ≠ .empty → near.digest ≠ .empty)
    (hFarDigest : far ≠ .empty → far.digest ≠ .empty)
    (hForeign : path.leafKey ≠ key → near ≠ .empty) :
    (serve key level far path).climb key level near.reached =
      (graft (key.bit level) near far).reached := by
  obtain ⟨leafKey, siblings⟩ := path
  have hGet : ∀ d, (siblings.put level d).get level = d := by
    intro d
    rw [Siblings.get_put, if_pos rfl]
  cases far with
  | empty =>
    rw [serve, climb_of_ne _ hEnd, hGet]
    · exact ascend_empty key level near
    · simp
  | branch d zero one =>
    rw [serve, climb_of_ne _ hEnd, hGet]
    · exact ascend_digest _ (hFarDigest (by simp)) (by simp [isLeaf])
    · simp
  | leaf k v =>
    by_cases hKey : leafKey = key
    · rw [serve, if_pos hKey, climb_of_eq _ (hFar k v rfl).symm, hGet]
      split
      · rename_i hEmpty
        have hNear : near = .empty := by
          by_contra hNear
          exact hNearDigest hNear hEmpty
        subst hNear
        cases key.bit level <;> rfl
      · rename_i hNonempty
        refine ascend_digest (.leaf k v) (hFarDigest (by simp)) fun _ hNear => hNonempty ?_
        rw [hNear]
        rfl
    · rw [serve, if_neg hKey, climb_of_ne _ hEnd, hGet]
      exact ascend_digest _ (hFarDigest (by simp)) fun _ => hForeign hKey

/-! ## The fold against an update -/

theorem start_eq (key value : Digest) :
    start key value = (ofBinding key (Trie.stored value)).reached := by
  rw [start, Trie.stored]
  split <;> rfl

theorem fold_ofKey (key value : Digest) (levels : List (Fin 512)) :
    (ofKey key).fold key levels (start key value) = (ofBinding key (Trie.stored value)).reached := by
  rw [fold_of_quiet _ value, start_eq]
  intro level _
  exact ⟨Siblings.get_empty level.val, Digest.ne_firstDifference_self key level.isLt⟩

theorem fold_serve {path : AuditPath} {key value : Digest} {depth : Nat} {near far : Tree}
    (hDepth : depth < 512)
    (hFold : path.fold key (levels.drop (depth + 1)) (start key value) = near.reached)
    (hEnd : depth ≠ key.firstDifference path.leafKey)
    (hFar : ∀ k v, far = .leaf k v → key.firstDifference k = depth)
    (hForeign : path.leafKey ≠ key → near ≠ .empty)
    (hDigests : .empty ∉ (graft (key.bit ⟨depth, hDepth⟩) near far).digests) :
    (serve key ⟨depth, hDepth⟩ far path).fold key (levels.drop depth) (start key value) =
      (graft (key.bit ⟨depth, hDepth⟩) near far).reached := by
  have hBelow : (serve key ⟨depth, hDepth⟩ far path).fold key (levels.drop (depth + 1))
      (start key value) = near.reached := by
    rw [← hFold]
    refine List.foldr_ext _ _ _ fun level hLevel r => ?_
    have hLt : depth < level.val := (mem_levels_drop hDepth).mp hLevel
    exact climb_serve_of_lt ⟨depth, hDepth⟩ hLt hFar r
  rw [fold_drop _ _ hDepth, hBelow]
  refine climb_serve hEnd hFar ?_ ?_ hForeign
  · exact digest_ne_empty fun h => hDigests (mem_digests_graft _ (.inl h))
  · exact digest_ne_empty fun h => hDigests (mem_digests_graft _ (.inr h))

end AuditPath

namespace Tree

variable [HashFunction]

open AuditPath

theorem fold_own {key value : Digest} {levels : List (Fin 512)} {t t' : Tree} (h : Own key t)
    {path : AuditPath} {found : Option Digest} (hLookup : lookup key levels t = .ok (path, found))
    (hSet : set key (Trie.stored value) levels t = .ok t') :
    path.fold key levels (start key value) = t'.reached := by
  obtain ⟨found', hOwn, -⟩ := lookup_own h levels
  cases hLookup.symm.trans hOwn
  cases hSet.symm.trans (set_own h _ levels)
  exact fold_ofKey key value levels

/-- The path that a canonical subtree serves for a key folds to what the subtree is after any update
of that key. -/
theorem Canonical.fold_eq {key value : Digest} {depth : Nat} (hDepth : depth ≤ 512) {t t' : Tree}
    (hCanonical : Canonical depth t) (hShares : Shares key depth t) {path : AuditPath}
    {found : Option Digest} (hLookup : Tree.lookup key (levels.drop depth) t = .ok (path, found))
    (hSet : Tree.set key (Trie.stored value) (levels.drop depth) t = .ok t')
    (hDigests : .empty ∉ t'.digests) :
    path.fold key (levels.drop depth) (start key value) = t'.reached := by
  induction hDepth using Nat.decreasingInduction generalizing t t' path found with
  | self => exact fold_own (own_of_width hCanonical hShares) hLookup hSet
  | of_succ depth hLt ih =>
    by_cases hOwn : Own key t
    · exact fold_own hOwn hLookup hSet
    cases t with
    | empty => exact absurd (.inl rfl) hOwn
    | leaf k v =>
      have hKey : k ≠ key := by
        rintro rfl
        exact hOwn (.inr ⟨v, rfl⟩)
      rw [lookup_leaf_of_ne _ v hKey] at hLookup
      cases hLookup
      rw [levels_drop hLt] at hSet
      by_cases hBit : k.bit ⟨depth, hLt⟩ = key.bit ⟨depth, hLt⟩
      · -- The leaf is pushed down one level, and its path has nothing there.
        have hBelow := hShares.leaf_succ hLt hBit
        have hCanonical' := hCanonical.leaf_at (depth + 1)
        obtain ⟨near, hNear, -⟩ := hCanonical'.set hLt hBelow (Trie.stored_ne value)
        rw [set_leaf_of_bit_eq _ _ v hKey hBit, hNear] at hSet
        cases hSet
        have hFold := ih hCanonical' hBelow (lookup_leaf_of_ne _ v hKey) hNear fun h =>
          hDigests (mem_digests_graft _ (.inl h))
        have hNe : depth ≠ key.firstDifference k := Nat.ne_of_lt (shares_leaf.mp hBelow)
        rw [fold_drop _ _ hLt, hFold, foreign, climb_of_ne _ hNe, Siblings.get_put, if_neg hNe]
        exact ascend_empty key _ near
      · -- The keys part, and the leaf is the other side of a branch.
        have hFirst : key.firstDifference k = depth := by
          apply Digest.firstDifference_eq_of (i := ⟨depth, hLt⟩) (shares_leaf.mp hShares)
          exact Ne.symm hBit
        rw [set_leaf_of_bit_ne _ _ v hKey hBit, set_own (.inl rfl)] at hSet
        cases hSet
        rw [foreign_eq_serve v hKey hLt hFirst]
        refine fold_serve hLt (fold_ofKey key value _) (Digest.ne_firstDifference_self key hLt) ?_
          (absurd rfl) hDigests
        rintro k' v' ⟨⟩
        exact hFirst
    | branch d zero one =>
      have hBelow := hShares.near hCanonical hLt
      obtain ⟨path, found, hNearLookup, hServed⟩ := (hCanonical.child _).lookup hBelow
      obtain ⟨near, hNear, hUpdated⟩ := (hCanonical.child _).set hLt hBelow (Trie.stored_ne value)
      rw [levels_drop hLt, lookup_branch, hNearLookup] at hLookup
      rw [levels_drop hLt, set_branch, hNear] at hSet
      cases hLookup
      cases hSet
      have hFold := ih (hCanonical.child _) hBelow hNearLookup hNear fun h =>
        hDigests (mem_digests_graft _ (.inl h))
      refine fold_serve hLt hFold ?_ (fun k v => hShares.firstDifference_far hCanonical hLt) ?_ hDigests
      · rcases hServed.leafKey with hEnd | ⟨v, hEnd⟩
        · rw [hEnd]
          exact Digest.ne_firstDifference_self key hLt
        · exact Nat.ne_of_lt (hBelow.le hEnd)
      · intro hForeign
        obtain ⟨v, hEnd⟩ := hServed.leafKey.resolve_left hForeign
        rintro rfl
        exact List.not_mem_nil ((hUpdated.mem_iff _).mpr (.inl ⟨hForeign, hEnd⟩))

end Tree

namespace Trie

section

variable [HashFunction]

theorem Reachable.exists_insert {t : Trie} (h : Reachable t) (key value : Digest) :
    ∃ next, t.insert key value = .ok next := by
  obtain ⟨next, hInsert, -⟩ := insert_of_canonical h.canonical key value
  exact ⟨next, hInsert⟩

theorem root_of_canonical {t next : Trie} (h : t.tree.Canonical 0) {key value : Digest}
    {path : AuditPath} {found : Option Digest} (hLookup : t.lookup key = .ok (path, found))
    (hInsert : t.insert key value = .ok next) (hDigests : .empty ∉ next.tree.digests) :
    path.root key value = next.root := by
  obtain ⟨next', hInsert', hSet, -⟩ := insert_of_canonical h key value
  cases hInsert.symm.trans hInsert'
  rw [← Tree.levels_drop_zero] at hSet
  rw [lookup, ← Tree.levels_drop_zero] at hLookup
  have hFold := h.fold_eq (Nat.zero_le 512) (Tree.shares_zero key _) hLookup hSet hDigests
  rw [Tree.levels_drop_zero] at hFold
  exact congrArg AuditPath.Reached.digest hFold

/-- Inserting what a key has already changes no binding. -/
theorem insert_found {t next : Trie} (h : t.tree.Canonical 0) {key : Digest} {path : AuditPath}
    {found : Option Digest} (hLookup : t.lookup key = .ok (path, found))
    (hInsert : t.insert key (found.getD .empty) = .ok next) : next.tree = t.tree := by
  obtain ⟨path', found', hLookup', hServed⟩ := lookup_of_canonical h key
  cases hLookup.symm.trans hLookup'
  obtain ⟨next', hInsert', -, hUpdated⟩ := insert_of_canonical h key (found.getD .empty)
  cases hInsert.symm.trans hInsert'
  have hStored : stored (found.getD .empty) = found := by
    cases found with
    | none => exact if_pos rfl
    | some v => exact if_neg (h.value_ne_empty _ ((hServed.found_iff v).mp rfl))
  apply hUpdated.canonical.eq_of_mem_iff h
  rintro ⟨k, v⟩
  rw [hUpdated.mem_iff, hStored, hServed.found_iff]
  by_cases hKey : k = key
  · simp [hKey]
  · simp [hKey]

/-- A served path commits the value that its key has to the root of the trie. -/
theorem root_of_lookup {t : Trie} (h : t.tree.Canonical 0) {key : Digest} {path : AuditPath}
    {found : Option Digest} (hLookup : t.lookup key = .ok (path, found))
    (hDigests : Digest.empty ∉ t.tree.digests) : path.root key (found.getD .empty) = t.root := by
  obtain ⟨same, hSame, -⟩ := insert_of_canonical h key (found.getD .empty)
  have hTree := insert_found h hLookup hSame
  rw [← hTree] at hDigests
  rw [root_of_canonical h hLookup hSame hDigests, root, root, hTree]

/-- A served path commits, for every new value of its key, to the root after the update, and for the
value that the key has to the present root. -/
theorem Reachable.lookup_predicts {t : Trie} (h : t.Reachable) (key value : Digest) :
    ∃ path found next, t.lookup key = .ok (path, found) ∧ t.insert key value = .ok next ∧
      (Digest.empty ∉ next.tree.digests → path.root key value = next.root) ∧
      (Digest.empty ∉ t.tree.digests → path.root key (found.getD .empty) = t.root) := by
  obtain ⟨path, found, hLookup, -⟩ := lookup_of_canonical h.canonical key
  obtain ⟨next, hInsert⟩ := h.exists_insert key value
  obtain ⟨same, hSame⟩ := h.exists_insert key (found.getD .empty)
  refine ⟨path, found, next, hLookup, hInsert, root_of_canonical h.canonical hLookup hInsert, ?_⟩
  intro hDigests
  have hTree := insert_found h.canonical hLookup hSame
  rw [← hTree] at hDigests
  rw [root_of_canonical h.canonical hLookup hSame hDigests, root, root, hTree]

end

theorem root_of_lone : ∃ path found, lone.lookup (.filled 1) = .ok (path, found) ∧
    path.root (.filled 1) (.filled 4) = pair.root ∧
    path.root (.filled 1) (found.getD .empty) = lone.root := by
  obtain ⟨path, found, next, hLookup, hInsert, hNext, hSame⟩ :=
    reachable_lone.lookup_predicts (.filled 1) (.filled 4)
  cases hInsert.symm.trans insert_lone
  exact ⟨path, found, hLookup, hNext (by decide +kernel), hSame (by decide +kernel)⟩

end Trie

end SignedDirectory
