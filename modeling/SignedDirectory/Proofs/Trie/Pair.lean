import SignedDirectory.Proofs.AuditPath.Inputs
import SignedDirectory.Proofs.AuditPath.Siblings
import SignedDirectory.Proofs.Trie.Prediction
import SignedDirectory.Proofs.Trie.Refinement

/-!
# Tries of two keys

`Trie.ofPair` computes the root and a path of a trie of two keys without the trie. Every such trie has a
branch where the keys part, and above it one branch with an empty side for every bit that they share
(`Tree.Canonical.fork`), so that its root, the path that it serves and the root to which this path commits are
what is computed (`Trie.ofPair_agrees`). The bits are read by number; no number is beyond the last bit, since
equal keys are refused before any bit is read (`Trie.ofPair?_eq`).
-/

namespace SignedDirectory

open AuditPath

theorem Siblings.put_empty (s : Siblings) (level : Fin 512) (h : s.get level = .empty) :
    s.put level .empty = s := by
  apply ext_get
  intro level'
  rw [get_put]
  split
  · rename_i hLevel
    rw [hLevel, h]
  · rfl

namespace Tree

/-! ## Subtrees of few keys -/

variable [HashFunction]

namespace Canonical

theorem eq_empty {depth : Nat} {t : Tree} (h : Canonical depth t) (hMem : ∀ c, c ∉ t.bindings) :
    t = .empty :=
  h.eq_of_mem_iff .empty fun c => ⟨fun hc => absurd hc (hMem c), fun hc => absurd hc List.not_mem_nil⟩

theorem eq_leaf {depth : Nat} {t : Tree} (h : Canonical depth t) {b : Digest × Digest}
    (hMem : ∀ c, c ∈ t.bindings ↔ c = b) : t = .leaf b.1 b.2 := by
  apply h.eq_of_mem_iff (.leaf (h.value_ne_empty b ((hMem b).mpr rfl)))
  exact fun c => (hMem c).trans List.mem_singleton.symm

section

variable {a b : Digest × Digest} {level : Fin 512}

theorem eq_branch {depth : Nat} {t : Tree} (h : Canonical depth t) (hKeys : a.1 ≠ b.1)
    (hMem : ∀ c, c ∈ t.bindings ↔ c = a ∨ c = b) : ∃ d zero one, t = .branch d zero one := by
  cases h with
  | empty => exact absurd ((hMem a).mpr (.inl rfl)) List.not_mem_nil
  | leaf =>
    have ha := List.mem_singleton.mp ((hMem a).mpr (.inl rfl))
    have hb := List.mem_singleton.mp ((hMem b).mpr (.inr rfl))
    exact absurd (congrArg Prod.fst (ha.trans hb.symm)) hKeys
  | branch => exact ⟨_, _, _, rfl⟩

/-- Where the keys part, each side has one of them. -/
theorem sides_of_split {depth : Nat} (hDepth : depth < 512)
    (hSplit : a.1.firstDifference b.1 = depth) {d : Digest} {zero one : Tree}
    (h : Canonical depth (.branch d zero one))
    (hMem : ∀ c, c ∈ (Tree.branch d zero one).bindings ↔ c = a ∨ c = b) :
    Tree.child (a.1.bit ⟨depth, hDepth⟩) zero one = .leaf a.1 a.2 ∧
      Tree.child (!a.1.bit ⟨depth, hDepth⟩) zero one = .leaf b.1 b.2 := by
  have hBit : a.1.bit ⟨depth, hDepth⟩ ≠ b.1.bit ⟨depth, hDepth⟩ :=
    Digest.bit_ne_of_firstDifference_eq hSplit
  constructor
  · refine (h.child _).eq_leaf fun c => ?_
    rw [h.mem_child_bindings hDepth, hMem]
    constructor
    · rintro ⟨rfl | rfl, hSide⟩
      · rfl
      · exact absurd hSide.symm hBit
    · rintro rfl
      exact ⟨.inl rfl, rfl⟩
  · refine (h.child _).eq_leaf fun c => ?_
    rw [h.mem_child_bindings hDepth, hMem]
    constructor
    · rintro ⟨rfl | rfl, hSide⟩
      · exact absurd hSide (Bool.self_ne_not _)
      · rfl
    · rintro rfl
      exact ⟨.inr rfl, Bool.eq_not_of_ne hBit.symm⟩

/-- Where the keys have the same bit, both are on one side. -/
theorem sides_of_lt {depth : Nat} (hDepth : depth < 512)
    (hSplit : depth < a.1.firstDifference b.1) {d : Digest} {zero one : Tree}
    (h : Canonical depth (.branch d zero one))
    (hMem : ∀ c, c ∈ (Tree.branch d zero one).bindings ↔ c = a ∨ c = b) :
    (∀ c, c ∈ (Tree.child (a.1.bit ⟨depth, hDepth⟩) zero one).bindings ↔ c = a ∨ c = b) ∧
      Tree.child (!a.1.bit ⟨depth, hDepth⟩) zero one = .empty := by
  have hBit : a.1.bit ⟨depth, hDepth⟩ = b.1.bit ⟨depth, hDepth⟩ :=
    Digest.bit_eq_of_lt_firstDifference hSplit
  have hSide : ∀ c, c = a ∨ c = b → c.1.bit ⟨depth, hDepth⟩ = a.1.bit ⟨depth, hDepth⟩ := by
    rintro c (rfl | rfl)
    · rfl
    · exact hBit.symm
  constructor
  · intro c
    rw [h.mem_child_bindings hDepth, hMem]
    exact and_iff_left_of_imp (hSide c)
  · refine (h.child _).eq_empty fun c hc => ?_
    obtain ⟨hBound, hFar⟩ := (h.mem_child_bindings hDepth _ c).mp hc
    exact Bool.self_ne_not _ ((hSide c ((hMem c).mp hBound)).symm.trans hFar)

/-- The digest and the lookup of a subtree of two keys, at a depth down to which both are the same. -/
theorem fork (hSplit : a.1.firstDifference b.1 = level) {depth : Nat} (hDepth : depth ≤ level.val)
    {t : Tree} (h : Canonical depth t) (hMem : ∀ c, c ∈ t.bindings ↔ c = a ∨ c = b) :
    t.digest = ((levels.take level).drop depth).foldr (fun l d => join a.1 l d .empty)
        (join a.1 level (.combine a.1 a.2) (.combine b.1 b.2)) ∧
      Tree.lookup a.1 (levels.drop depth) t =
        .ok (⟨b.1, Siblings.empty.put level b.2⟩, some a.2) := by
  have hKeys : a.1 ≠ b.1 := by
    rw [← Digest.firstDifference_lt_iff, hSplit]
    exact level.isLt
  induction hDepth using Nat.decreasingInduction generalizing t with
  | self =>
    obtain ⟨d, zero, one, rfl⟩ := h.eq_branch hKeys hMem
    obtain ⟨hNear, hFar⟩ := h.sides_of_split level.isLt hSplit hMem
    constructor
    · rw [List.drop_of_length_le (List.length_take_le _ _), List.foldr_nil, Tree.digest,
        h.digest_eq_join a.1 level, hNear, hFar]
      rfl
    · rw [levels_drop level.isLt, lookup_branch, hNear, hFar, Tree.lookup, if_pos rfl]
      exact congrArg (fun path => Except.ok (path, some a.2)) (if_pos rfl)
  | of_succ depth hLt ih =>
    have hDepth : depth < 512 := hLt.trans level.isLt
    obtain ⟨d, zero, one, rfl⟩ := h.eq_branch hKeys hMem
    rw [← hSplit] at hLt
    obtain ⟨hNear, hFar⟩ := h.sides_of_lt hDepth hLt hMem
    obtain ⟨hDigest, hLookup⟩ := ih (h.child _) hNear
    rw [hSplit] at hLt
    constructor
    · rw [levels_take_drop hDepth hLt, List.foldr_cons, ← hDigest, Tree.digest,
        h.digest_eq_join a.1 ⟨depth, hDepth⟩, hFar]
      rfl
    · have hNothing : (Siblings.empty.put level b.2).get depth = .empty := by
        rw [Siblings.get_put, if_neg (Nat.ne_of_lt hLt), Siblings.get_empty]
      rw [levels_drop hDepth, lookup_branch, hLookup, hFar]
      exact congrArg (fun s => Except.ok (AuditPath.mk b.1 s, some a.2))
        (Siblings.put_empty _ ⟨depth, hDepth⟩ hNothing)

end

end Canonical

end Tree

namespace Trie

section

variable [HashFunction]

/-! ## The computed trie -/

theorem ofPair_of_ne {a b : Digest × Digest} {level : Fin 512}
    (hSplit : a.1.firstDifference b.1 = level) :
    ofPair a b = .ok ((Tree.levels.take level).foldr (fun l d => join a.1 l d .empty)
        (join a.1 level (.combine a.1 a.2) (.combine b.1 b.2)),
      ⟨b.1, Siblings.empty.put level b.2⟩) := by
  simp only [ofPair, hSplit, Siblings.set_of_lt _ level.isLt, Digest.bit?_of_lt _ level.isLt,
    Option.some.injEq]
  rfl

theorem ofPair_of_eq {a b : Digest × Digest} (hKeys : a.1 = b.1) :
    ofPair a b = .error (.depthOutOfRange Digest.width) := by
  have hSplit : a.1.firstDifference b.1 = Digest.width := Digest.firstDifference_eq_width_iff.mpr hKeys
  simp only [ofPair, hSplit, Siblings.set_of_le _ le_rfl]
  rfl

/-! ## The bits that are read -/

/-- The digest over a chain of branches with an empty side, one at each of so many levels, if the key has a bit
for every one of them. -/
def chain? (key : Digest) (depth : Nat) (d : Digest) : Option Digest :=
  (List.range depth).foldrM
    (fun i d => (key.bit? i).map fun side => if side then .combine .empty d else .combine d .empty) d

/-- `ofPair` with every bit read by its number. A number beyond the last bit has no bit, and then there is no
result at all. -/
def ofPair? (a b : Digest × Digest) : ExceptT PathError Option (Digest × AuditPath) := do
  let split := a.1.firstDifference b.1
  let siblings ← ExceptT.mk (some (Siblings.empty.set split b.2))
  let aLeaf := Digest.combine a.1 a.2
  let bLeaf := Digest.combine b.1 b.2
  let side ← a.1.bit? split
  let root ← chain? a.1 split (if side then .combine bLeaf aLeaf else .combine aLeaf bLeaf)
  return (root, ⟨b.1, siblings⟩)

theorem chain?_eq (key d : Digest) {depth : Nat} (hDepth : depth ≤ 512) :
    chain? key depth d =
      some ((Tree.levels.take depth).foldr (fun level d => join key level d .empty) d) := by
  induction depth generalizing d with
  | zero => rfl
  | succ depth ih =>
    rw [chain?, List.range_succ, List.foldrM_append, Tree.levels_take_succ hDepth, List.foldr_append]
    simp only [List.foldrM_cons, List.foldrM_nil, Digest.bit?_of_lt key hDepth]
    exact ih _ (Nat.le_of_succ_le hDepth)

/-- Equal keys are refused before a bit is read, and of different keys only bits up to the first difference
are read. -/
theorem ofPair?_eq (a b : Digest × Digest) : (ofPair? a b).run = some (ofPair a b) := by
  rcases Nat.lt_or_ge (a.1.firstDifference b.1) Digest.width with hParted | hEqual
  · simp only [ofPair?, ofPair, Siblings.set_of_lt _ hParted, Digest.bit?_of_lt _ hParted,
      chain?_eq _ _ hParted.le, Option.some.injEq]
    rfl
  · simp only [ofPair?, ofPair, Siblings.set_of_le _ hEqual]
    rfl

/-! ## Tries of exactly two keys -/

/-- A trie of exactly two bindings. -/
structure Holds (t : Trie) (a b : Digest × Digest) : Prop where
  reachable : t.Reachable
  binds_iff : ∀ key value, t.Binds key value ↔ (key, value) = a ∨ (key, value) = b

theorem exists_holds {a b : Digest × Digest} (hKeys : a.1 ≠ b.1) (ha : a.2 ≠ .empty)
    (hb : b.2 ≠ .empty) : ∃ t, Holds t a b := by
  obtain ⟨t, hReplay, hRepresents⟩ := exists_replay [.insert a.1 a.2, .insert b.1 b.2]
  have hReachable : t.Reachable := reachable_iff.mpr ⟨_, hReplay⟩
  refine ⟨t, hReachable, fun key value => ?_⟩
  rw [hReachable.binds_iff, hRepresents.mem_iff]
  change ((Change.insert b.1 b.2).onMap ((Change.insert a.1 a.2).onMap ∅)).lookup key = _ ↔ _
  have hFirst : stored a.2 = some a.2 := if_neg ha
  have hSecond : stored b.2 = some b.2 := if_neg hb
  rw [lookup_onMap_insert, lookup_onMap_insert, hFirst, hSecond, Finmap.lookup_empty, Prod.ext_iff,
    Prod.ext_iff]
  grind

theorem Holds.ofPair_eq {t : Trie} {a b : Digest × Digest} (h : Holds t a b) (hKeys : a.1 ≠ b.1) :
    ∃ path, ofPair a b = .ok (t.root, path) ∧ t.lookup a.1 = .ok (path, some a.2) := by
  obtain ⟨level, hLevel⟩ := Digest.exists_level hKeys
  have hMem : ∀ c, c ∈ t.tree.bindings ↔ c = a ∨ c = b := fun c =>
    h.reachable.binds_iff.symm.trans (h.binds_iff c.1 c.2)
  obtain ⟨hDigest, hLookup⟩ := h.reachable.canonical.fork hLevel.symm (Nat.zero_le _) hMem
  rw [List.drop_zero] at hDigest
  rw [Tree.levels_drop_zero] at hLookup
  refine ⟨_, ?_, hLookup⟩
  have hRoot : t.root = _ := hDigest
  rw [hRoot]
  exact ofPair_of_ne hLevel.symm

/-- The computed root and path of two bindings are those of their trie, and the path commits the first of them
to the root. Equal keys are refused, and no bit beyond the last is read. -/
theorem ofPair_agrees (a b : Digest × Digest) :
    (a.1 ≠ b.1 → a.2 ≠ .empty → b.2 ≠ .empty →
      (∃ t, Holds t a b) ∧ ∀ t, Holds t a b →
        ∃ path, ofPair a b = .ok (t.root, path) ∧ t.lookup a.1 = .ok (path, some a.2) ∧
          (Digest.empty ∉ t.tree.digests → path.root a.1 a.2 = t.root)) ∧
      (a.1 = b.1 → ofPair a b = .error (.depthOutOfRange Digest.width)) ∧
      (ofPair? a b).run = some (ofPair a b) := by
  refine ⟨fun hKeys ha hb => ⟨exists_holds hKeys ha hb, fun t h => ?_⟩, ofPair_of_eq, ofPair?_eq a b⟩
  obtain ⟨path, hPair, hLookup⟩ := h.ofPair_eq hKeys
  have hRoot := root_of_lookup h.reachable.canonical hLookup
  rw [Option.getD_some] at hRoot
  exact ⟨path, hPair, hLookup, hRoot⟩

end

/-- A trie of two keys that share the first bit. -/
def forkedPair : Trie :=
  let forked := Digest.combine (.combine (.filled 1) (.filled 4)) (.combine (.filled 3) (.filled 7))
  ⟨.branch (.combine .empty forked) .empty
    (.branch forked (.leaf (.filled 1) (.filled 4)) (.leaf (.filled 3) (.filled 7))), 2⟩

theorem holds_forkedPair : Holds forkedPair (.filled 1, .filled 4) (.filled 3, .filled 7) := by
  have hFirst : Trie.empty.insert (.filled 1) (.filled 4) =
      .ok ⟨.leaf (.filled 1) (.filled 4), 1⟩ := by decide +kernel
  have hSecond : insert ⟨.leaf (.filled 1) (.filled 4), 1⟩ (.filled 3) (.filled 7) =
      .ok forkedPair := by decide +kernel
  have hReachable : forkedPair.Reachable := .insert (.insert .empty hFirst) hSecond
  refine ⟨hReachable, fun key value => ?_⟩
  rw [hReachable.binds_iff]
  simp [forkedPair, Tree.bindings]

theorem ofPair_agrees_forkedPair : ∃ path,
    ofPair (.filled 1, .filled 4) (.filled 3, .filled 7) = .ok (forkedPair.root, path) ∧
      forkedPair.lookup (.filled 1) = .ok (path, some (.filled 4)) ∧
      path.root (.filled 1) (.filled 4) = forkedPair.root ∧
      ofPair (.filled 1, .filled 4) (.filled 1, .filled 7) = .error (.depthOutOfRange 512) := by
  obtain ⟨hForked, -⟩ := ofPair_agrees (.filled 1, .filled 4) (.filled 3, .filled 7)
  obtain ⟨-, hSame, -⟩ := ofPair_agrees (.filled 1, .filled 4) (.filled 1, .filled 7)
  obtain ⟨path, hPair, hLookup, hRoot⟩ :=
    (hForked (by decide +kernel) (by decide +kernel) (by decide +kernel)).2 forkedPair holds_forkedPair
  exact ⟨path, hPair, hLookup, hRoot (by decide +kernel), hSame rfl⟩

end Trie

end SignedDirectory
