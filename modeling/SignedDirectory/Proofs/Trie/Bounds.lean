import SignedDirectory.Proofs.AuditPath.Siblings
import SignedDirectory.Proofs.Trie.Refinement

/-!
# Recursions down a trie stay within the bits of the keys

`Tree.SetRuns` and `Tree.LookupRuns` are the recursions of an update and of a lookup without a bound: what a call
results in, and after how many calls. They ask for bits and for levels by any number, an update sends a leaf that
it has pushed down through the recursion again, and the number of keys is counted down whatever it is. There is a
result only if the recursion ends and all that was asked for is there. On the tries that histories build there
always is one, that of the bounded operation, after at most one call for each depth from 0 to 512
(`Trie.replay_in_bounds`).
-/

namespace SignedDirectory

/-- A recursion ends within a number of calls, with the result of a bounded operation that succeeds and with no
other. -/
def EndsWithin {α : Type} (bound : Nat) (runs : α → Nat → Prop) (r : Except PathError α) : Prop :=
  ∃ a calls, r = .ok a ∧ calls ≤ bound ∧ runs a calls ∧ ∀ b n, runs b n → b = a ∧ n = calls

theorem EndsWithin.runs_of_ok {α : Type} {bound : Nat} {runs : α → Nat → Prop} {r : Except PathError α}
    {a : α} (h : EndsWithin bound runs r) (hOk : r = .ok a) :
    ∃ calls ≤ bound, runs a calls ∧ ∀ b n, runs b n → b = a ∧ n = calls := by
  obtain ⟨b, calls, hResult, hEnds⟩ := h
  obtain rfl := Except.ok.inj (hOk.symm.trans hResult)
  exact ⟨calls, hEnds⟩

namespace Tree

/-! ## Updates -/

/-- The two sides of a subtree at a level. A leaf is on the side of its bit. -/
def sides (level : Fin 512) : Tree → Tree × Tree
  | .empty => (.empty, .empty)
  | .leaf k v => if k.bit level then (.empty, .leaf k v) else (.leaf k v, .empty)
  | .branch _ zero one => (zero, one)

def sides? (depth : Nat) : Tree → Option (Tree × Tree)
  | .empty => some (.empty, .empty)
  | .leaf k v => (k.bit? depth).map fun side => if side then (.empty, .leaf k v) else (.leaf k v, .empty)
  | .branch _ zero one => some (zero, one)

theorem sides?_of_lt (t : Tree) {depth : Nat} (h : depth < 512) :
    t.sides? depth = some (t.sides ⟨depth, h⟩) := by
  cases t with
  | empty => rfl
  | leaf k v =>
    rw [sides?, Digest.bit?_of_lt k h]
    rfl
  | branch => rfl

/-- The side of a key. -/
def near (key : Digest) (level : Fin 512) (t : Tree) : Tree :=
  child (key.bit level) (t.sides level).1 (t.sides level).2

def far (key : Digest) (level : Fin 512) (t : Tree) : Tree :=
  child (!key.bit level) (t.sides level).1 (t.sides level).2

theorem near_leaf (key k v : Digest) (level : Fin 512) :
    near key level (.leaf k v) = if k.bit level = key.bit level then .leaf k v else .empty := by
  rw [near, sides]
  cases k.bit level <;> cases key.bit level <;> rfl

variable [HashFunction]

theorem set_of_not_own {key : Digest} {t : Tree} (h : ¬ Own key t) (value : Option Digest)
    (level : Fin 512) (below : List (Fin 512)) :
    set key value (level :: below) t =
      (graft (key.bit level) · (far key level t)) <$> set key value below (near key level t) := by
  rw [far, near]
  cases t with
  | empty => exact absurd (.inl rfl) h
  | leaf k v =>
    have hKey : k ≠ key := by
      rintro rfl
      exact h (.inr ⟨v, rfl⟩)
    rcases eq_or_ne (k.bit level) (key.bit level) with hBit | hBit
    · rw [set_leaf_of_bit_eq value below v hKey hBit, sides, hBit]
      cases key.bit level <;> rfl
    · rw [set_leaf_of_bit_ne value below v hKey hBit, sides, Bool.eq_not_of_ne hBit]
      cases key.bit level <;> rfl
  | branch d zero one => exact set_branch key value level below d zero one

theorem own_of_set_nil {key : Digest} {value : Option Digest} {t t' : Tree}
    (h : set key value [] t = .ok t') : Own key t := by
  cases t with
  | empty => exact .inl rfl
  | leaf k v =>
    rw [set] at h
    split at h
    · rename_i hKey
      exact .inr ⟨v, by rw [hKey]⟩
    · cases h
  | branch => cases h

/-- Binding a key in a subtree at a depth: the result, and the number of calls. -/
inductive SetRuns (key : Digest) (value : Option Digest) : Nat → Tree → Tree → Nat → Prop where
  | own {depth : Nat} {t : Tree} : Own key t → SetRuns key value depth t (ofBinding key value) 1
  | call {depth calls : Nat} {t zero one below : Tree} {side : Bool} :
      ¬ Own key t → t.sides? depth = some (zero, one) → key.bit? depth = some side →
      SetRuns key value (depth + 1) (child side zero one) below calls →
      SetRuns key value depth t (graft side below (child (!side) zero one)) (calls + 1)

namespace SetRuns

variable {key : Digest} {value : Option Digest} {depth : Nat} {t t' : Tree}

theorem at_level {calls : Nat} {below : Tree} (hDepth : depth < 512) (hOwn : ¬ Own key t)
    (h : SetRuns key value (depth + 1) (near key ⟨depth, hDepth⟩ t) below calls) :
    SetRuns key value depth t (graft (key.bit ⟨depth, hDepth⟩) below (far key ⟨depth, hDepth⟩ t))
      (calls + 1) :=
  .call hOwn (sides?_of_lt t hDepth) (Digest.bit?_of_lt key hDepth) h

theorem unique {s : Tree} {m n : Nat} (h : SetRuns key value depth t t' n)
    (h' : SetRuns key value depth t s m) : s = t' ∧ m = n := by
  induction h generalizing s m with
  | own hOwn =>
    cases h' with
    | own => exact ⟨rfl, rfl⟩
    | call hNot => exact absurd hOwn hNot
  | call hNot hSides hSide _ ih =>
    cases h' with
    | own hOwn => exact absurd hOwn hNot
    | call _ hSides' hSide' hBelow =>
      cases hSides.symm.trans hSides'
      cases hSide.symm.trans hSide'
      obtain ⟨rfl, rfl⟩ := ih hBelow
      exact ⟨rfl, rfl⟩

end SetRuns

/-- Where the bounded update succeeds, the recursion ends with its result, after one call at most for each depth
that is left. -/
theorem exists_setRuns {key : Digest} {value : Option Digest} {depth : Nat} (hDepth : depth ≤ 512)
    {t t' : Tree} (h : set key value (levels.drop depth) t = .ok t') :
    ∃ calls ≤ 513 - depth, SetRuns key value depth t t' calls := by
  -- A leaf that is pushed down does not get smaller, so the induction is on the levels that are left.
  induction hDepth using Nat.decreasingInduction generalizing t t' with
  | self =>
    rw [levels_drop_width] at h
    have hOwn := own_of_set_nil h
    obtain rfl := Except.ok.inj ((set_own hOwn value []).symm.trans h)
    exact ⟨1, by omega, .own hOwn⟩
  | of_succ depth hLt ih =>
    rcases Classical.em (Own key t) with hOwn | hOwn
    · obtain rfl := Except.ok.inj ((set_own hOwn value _).symm.trans h)
      exact ⟨1, by omega, .own hOwn⟩
    · rw [levels_drop hLt, set_of_not_own hOwn] at h
      obtain ⟨below, hBelow, rfl⟩ := map_eq_ok_iff.mp h
      obtain ⟨calls, hCalls, hRuns⟩ := ih hBelow
      exact ⟨calls + 1, by omega, hRuns.at_level hLt hOwn⟩

/-- The leaf of another key goes down to where the keys part, and the recursion ends one level below. -/
theorem exists_setRuns_leaf {key k : Digest} (hKey : k ≠ key) (value : Option Digest) (v : Digest)
    {depth : Nat} (hDepth : depth ≤ key.firstDifference k) :
    ∃ t', SetRuns key value depth (.leaf k v) t' (key.firstDifference k - depth + 2) := by
  have hOwn : ¬ Own key (.leaf k v) := by simpa [Own] using hKey
  obtain ⟨level, hLevel⟩ := Digest.exists_level hKey.symm
  rw [← hLevel] at hDepth ⊢
  induction hDepth using Nat.decreasingInduction with
  | self =>
    have hNear := near_leaf key k v level
    rw [if_neg (Digest.bit_ne_of_firstDifference_eq hLevel.symm).symm] at hNear
    have hBelow : SetRuns key value (level.val + 1) .empty _ 1 := .own (.inl rfl)
    rw [← hNear] at hBelow
    rw [Nat.sub_self]
    exact ⟨_, hBelow.at_level level.isLt hOwn⟩
  | of_succ depth hLt ih =>
    have hDepth : depth < 512 := hLt.trans level.isLt
    have hBit : key.bit ⟨depth, hDepth⟩ = k.bit ⟨depth, hDepth⟩ := by
      rw [hLevel] at hLt
      exact Digest.bit_eq_of_lt_firstDifference hLt
    have hCalls : level.val - depth + 2 = level.val - (depth + 1) + 2 + 1 := by omega
    have hNear := near_leaf key k v ⟨depth, hDepth⟩
    rw [if_pos hBit.symm] at hNear
    obtain ⟨below, hBelow⟩ := ih
    rw [← hNear] at hBelow
    rw [hCalls]
    exact ⟨_, hBelow.at_level hDepth hOwn⟩

/-- Keys that agree on 511 bits take as many calls as there can be. -/
theorem exists_setRuns_lone (key k v : Digest) (value : Option Digest) :
    ∃ t', SetRuns key value 0 (.leaf k v) t' (if k = key then 1 else key.firstDifference k + 2) := by
  split
  · rename_i hKey
    exact ⟨_, .own (.inr ⟨v, by rw [hKey]⟩)⟩
  · rename_i hKey
    have hLeaf := exists_setRuns_leaf hKey value v (Nat.zero_le _)
    rwa [Nat.sub_zero] at hLeaf

/-! ## Lookups -/

/-- The path of a key through a branch at a depth. -/
def serve? (key : Digest) (depth : Nat) (far : Tree) (path : AuditPath) : Except PathError AuditPath :=
  match far with
  | .leaf k v =>
    if path.leafKey = key then (⟨k, ·⟩) <$> path.siblings.set depth v
    else (⟨path.leafKey, ·⟩) <$> path.siblings.set depth far.digest
  | far => (⟨path.leafKey, ·⟩) <$> path.siblings.set depth far.digest

theorem serve?_of_lt (key : Digest) {depth : Nat} (h : depth < 512) (far : Tree) (path : AuditPath) :
    serve? key depth far path = .ok (serve key ⟨depth, h⟩ far path) := by
  have hFar : (AuditPath.mk path.leafKey ·) <$> path.siblings.set depth far.digest =
      .ok ⟨path.leafKey, path.siblings.put ⟨depth, h⟩ far.digest⟩ := by
    rw [Siblings.set_of_lt _ h]
    rfl
  cases far with
  | empty => exact hFar
  | leaf k v =>
    rw [serve?, serve]
    split
    · rw [Siblings.set_of_lt _ h]
      rfl
    · exact hFar
  | branch => exact hFar

/-- Looking a key up in a subtree at a depth: the audit path and the value, and the number of calls. -/
inductive LookupRuns (key : Digest) : Nat → Tree → AuditPath × Option Digest → Nat → Prop where
  | empty {depth : Nat} : LookupRuns key depth .empty (.ofKey key, none) 1
  | found {depth : Nat} {v : Digest} : LookupRuns key depth (.leaf key v) (.ofKey key, some v) 1
  | foreign {depth : Nat} {k v : Digest} {siblings : Siblings} :
      k ≠ key → Siblings.empty.set (key.firstDifference k) v = .ok siblings →
      LookupRuns key depth (.leaf k v) (⟨k, siblings⟩, none) 1
  | call {depth calls : Nat} {d : Digest} {zero one : Tree} {side : Bool} {path path' : AuditPath}
      {found : Option Digest} :
      key.bit? depth = some side → LookupRuns key (depth + 1) (child side zero one) (path, found) calls →
      serve? key depth (child (!side) zero one) path = .ok path' →
      LookupRuns key depth (.branch d zero one) (path', found) (calls + 1)

theorem LookupRuns.unique {key : Digest} {depth m n : Nat} {t : Tree} {r s : AuditPath × Option Digest}
    (h : LookupRuns key depth t r n) (h' : LookupRuns key depth t s m) : s = r ∧ m = n := by
  induction h generalizing s m with
  | empty =>
    cases h'
    exact ⟨rfl, rfl⟩
  | found =>
    cases h' with
    | found => exact ⟨rfl, rfl⟩
    | foreign hKey => exact absurd rfl hKey
  | foreign hKey hSet =>
    cases h' with
    | found => exact absurd rfl hKey
    | foreign _ hSet' =>
      cases hSet.symm.trans hSet'
      exact ⟨rfl, rfl⟩
  | call hSide _ hServe ih =>
    cases h' with
    | call hSide' hBelow hServe' =>
      cases hSide.symm.trans hSide'
      obtain ⟨hResult, rfl⟩ := ih hBelow
      cases hResult
      cases hServe.symm.trans hServe'
      exact ⟨rfl, rfl⟩

/-- Where the bounded lookup succeeds, the recursion ends with its result. -/
theorem exists_lookupRuns {key : Digest} {depth : Nat} (hDepth : depth ≤ 512) {t : Tree}
    {r : AuditPath × Option Digest} (h : lookup key (levels.drop depth) t = .ok r) :
    ∃ calls ≤ 513 - depth, LookupRuns key depth t r calls := by
  induction t generalizing depth r with
  | empty =>
    rw [lookup] at h
    cases h
    exact ⟨1, by omega, .empty⟩
  | leaf k v =>
    refine ⟨1, by omega, ?_⟩
    rcases eq_or_ne k key with rfl | hKey
    · have hFound : lookup k (levels.drop depth) (.leaf k v) = .ok (.ofKey k, some v) := by
        cases levels.drop depth <;> rw [lookup, if_pos rfl]
      cases hFound.symm.trans h
      exact .found
    · rw [lookup_leaf_of_ne _ v hKey] at h
      cases h
      exact .foreign hKey (Siblings.set_of_lt _ (Digest.firstDifference_lt_iff.mpr hKey.symm) v)
  | branch d zero one ihZero ihOne =>
    rcases Nat.lt_or_eq_of_le hDepth with hLt | rfl
    · rw [levels_drop hLt, lookup_branch] at h
      obtain ⟨⟨path, found⟩, hNear, rfl⟩ := map_eq_ok_iff.mp h
      have ih (side : Bool)
          (hSide : lookup key (levels.drop (depth + 1)) (child side zero one) = .ok (path, found)) :
          ∃ calls ≤ 513 - (depth + 1), LookupRuns key (depth + 1) (child side zero one) (path, found) calls := by
        cases side with
        | false => exact ihZero hLt hSide
        | true => exact ihOne hLt hSide
      obtain ⟨calls, hCalls, hRuns⟩ := ih _ hNear
      exact ⟨calls + 1, by omega, .call (Digest.bit?_of_lt key hLt) hRuns (serve?_of_lt key hLt _ path)⟩
    · rw [levels_drop_width] at h
      cases h

end Tree

namespace Trie

/-! ## Histories -/

/-- The number of keys when one of them has had a value, or none, and is given another, or none. There is no
number below zero. -/
def resize? (size : Nat) : Option Digest → Option Digest → Option Nat
  | none, some _ => some (size + 1)
  | some _, none => if 0 < size then some (size - 1) else none
  | _, _ => some size

theorem resize?_eq {size : Nat} {found : Option Digest} (h : found ≠ none → 0 < size)
    (stored : Option Digest) : resize? size found stored = some (resized size found stored) := by
  cases found with
  | none => cases stored <;> rfl
  | some value =>
    cases stored with
    | none => exact if_pos (h (by simp))
    | some _ => rfl

variable [HashFunction]

inductive ChangeRuns (t : Trie) : Change → Trie → Nat → Prop where
  | insert {key value : Digest} {path : AuditPath} {found : Option Digest} {tree : Tree}
      {lookups sets size : Nat} :
      Tree.LookupRuns key 0 t.tree (path, found) lookups →
      Tree.SetRuns key (stored value) 0 t.tree tree sets →
      resize? t.size found (stored value) = some size →
      ChangeRuns t (.insert key value) ⟨tree, size⟩ (lookups + sets)
  | remove {key : Digest} {next : Trie} {calls : Nat} :
      ChangeRuns t (.insert key .empty) next calls → ChangeRuns t (.remove key) next calls

inductive ReplayRuns : Trie → List Change → Trie → Nat → Prop where
  | nil {t : Trie} : ReplayRuns t [] t 0
  | cons {t next last : Trie} {c : Change} {history : List Change} {calls more : Nat} :
      ChangeRuns t c next calls → ReplayRuns next history last more →
      ReplayRuns t (c :: history) last (calls + more)

namespace Represents

variable {t : Trie} {m : Bindings}

theorem lookup_within (h : Represents t m) (key : Digest) :
    EndsWithin 513 (Tree.LookupRuns key 0 t.tree) (t.lookup key) := by
  obtain ⟨path, hLookup⟩ := h.exists_lookup key
  have hBounded := hLookup
  rw [lookup, ← Tree.levels_drop_zero] at hBounded
  obtain ⟨calls, hCalls, hRuns⟩ := Tree.exists_lookupRuns (Nat.zero_le 512) hBounded
  exact ⟨_, calls, hLookup, hCalls, hRuns, fun _ _ => hRuns.unique⟩

theorem set_within (h : Represents t m) (key value : Digest) :
    EndsWithin 513 (Tree.SetRuns key (stored value) 0 t.tree)
      (t.tree.set key (stored value) Tree.levels) := by
  obtain ⟨next, -, hSet, -⟩ := insert_of_canonical h.canonical key value
  have hBounded := hSet
  rw [← Tree.levels_drop_zero] at hBounded
  obtain ⟨calls, hCalls, hRuns⟩ := Tree.exists_setRuns (Nat.zero_le 512) hBounded
  exact ⟨_, calls, hSet, hCalls, hRuns, fun _ _ => hRuns.unique⟩

/-- A trie in which a key is found is not counted as empty. -/
theorem size_pos (h : Represents t m) (key : Digest) (hFound : m.lookup key ≠ none) : 0 < t.size := by
  obtain ⟨value, hValue⟩ := Option.ne_none_iff_exists'.mp hFound
  rw [h.size_eq, Finset.card_pos]
  exact ⟨key, Finmap.mem_keys.mpr (Finmap.mem_of_lookup_eq_some hValue)⟩

theorem insert_within (h : Represents t m) (key value : Digest) :
    EndsWithin 1026 (ChangeRuns t (.insert key value)) (t.insert key value) := by
  obtain ⟨path, hLookup⟩ := h.exists_lookup key
  obtain ⟨next, hInsert, hSet, -⟩ := insert_of_canonical h.canonical key value
  obtain ⟨lookups, hLookups, hLookupRuns, hLookupUnique⟩ := (h.lookup_within key).runs_of_ok hLookup
  obtain ⟨sets, hSets, hSetRuns, hSetUnique⟩ := (h.set_within key value).runs_of_ok hSet
  have hSize := resize?_eq (h.size_pos key) (stored value)
  rw [← size_of_insert hLookup hInsert] at hSize
  refine ⟨next, lookups + sets, hInsert, Nat.add_le_add hLookups hSets,
    .insert hLookupRuns hSetRuns hSize, fun next' calls hRuns => ?_⟩
  cases hRuns with
  | insert hLookup' hSet' hSize' =>
    obtain ⟨hFound, rfl⟩ := hLookupUnique _ _ hLookup'
    cases hFound
    obtain ⟨rfl, rfl⟩ := hSetUnique _ _ hSet'
    cases hSize.symm.trans hSize'
    exact ⟨rfl, rfl⟩

theorem apply_within (h : Represents t m) (c : Change) :
    EndsWithin 1026 (ChangeRuns t c) (c.apply t) := by
  cases c with
  | insert key value => exact h.insert_within key value
  | remove key =>
    obtain ⟨next, calls, hInsert, hCalls, hRuns, hUnique⟩ := h.insert_within key .empty
    refine ⟨next, calls, hInsert, hCalls, .remove hRuns, fun next' calls' hRemove => ?_⟩
    cases hRemove with
    | remove hErase => exact hUnique _ _ hErase

theorem replay_within (h : Represents t m) (history : List Change) :
    EndsWithin (1026 * history.length) (ReplayRuns t history) (history.foldlM Change.apply t) := by
  induction history generalizing t m with
  | nil =>
    refine ⟨t, 0, rfl, Nat.zero_le _, .nil, fun t' calls hRuns => ?_⟩
    cases hRuns
    exact ⟨rfl, rfl⟩
  | cons c history ih =>
    obtain ⟨next, hApply, hNext⟩ := h.apply c
    obtain ⟨calls, hCalls, hRuns, hUnique⟩ := (h.apply_within c).runs_of_ok hApply
    obtain ⟨last, more, hLast, hMore, hRestRuns, hRestUnique⟩ := ih hNext
    have hReplay : (c :: history).foldlM Change.apply t = .ok last := by
      rw [List.foldlM_cons, hApply]
      exact hLast
    have hBound : calls + more ≤ 1026 * (c :: history).length := by
      rw [List.length_cons]
      omega
    refine ⟨last, calls + more, hReplay, hBound, .cons hRuns hRestRuns, fun last' calls' hAll => ?_⟩
    cases hAll with
    | cons hFirst hRest =>
      obtain ⟨rfl, rfl⟩ := hUnique _ _ hFirst
      obtain ⟨rfl, rfl⟩ := hRestUnique _ _ hRest
      exact ⟨rfl, rfl⟩

end Represents

/-- The recursions of a history end, and so do those of a lookup, an update and a change of the trie that it
builds. None of them asks for a bit or a level from 512 on, or counts below zero, and the bounded operations have
their results. A leaf that an update meets at the top goes down as far as the keys agree. -/
theorem replay_in_bounds (history : List Change) :
    EndsWithin (1026 * history.length) (ReplayRuns ∅ history) (replay history) ∧
      ∃ t, replay history = .ok t ∧
        (∀ key, EndsWithin 513 (Tree.LookupRuns key 0 t.tree) (t.lookup key)) ∧
        (∀ key value, EndsWithin 513 (Tree.SetRuns key (stored value) 0 t.tree)
          (t.tree.set key (stored value) Tree.levels)) ∧
        (∀ c : Change, EndsWithin 1026 (ChangeRuns t c) (c.apply t)) ∧
        ∀ key k v value, ∃ tree,
          Tree.SetRuns key value 0 (.leaf k v) tree (if k = key then 1 else key.firstDifference k + 2) := by
  obtain ⟨t, hReplay, h⟩ := exists_replay history
  exact ⟨Represents.empty.replay_within history, t, hReplay, h.lookup_within, h.set_within, h.apply_within,
    Tree.exists_setRuns_lone⟩

end Trie

end SignedDirectory
