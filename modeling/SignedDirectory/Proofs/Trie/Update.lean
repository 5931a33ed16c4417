import Mathlib.Order.Basic
import SignedDirectory.Proofs.Levels
import SignedDirectory.Proofs.Trie.Canonical
import SignedDirectory.Sha512

/-!
# Updates and lookups of canonical tries

On a canonical subtree `Tree.set` succeeds, keeps the shape and changes the binding of its key only
(`Canonical.set`), and `Tree.lookup` finds what is bound (`Canonical.lookup`). Every trie that updates
reach from the empty one is therefore canonical (`Trie.Reachable.canonical`).
-/

namespace SignedDirectory

namespace Tree

/-! ## The part of a subtree on a path -/

/-- The keys of a subtree at a depth agree with a key down to that depth. -/
def Shares (key : Digest) (depth : Nat) (t : Tree) : Prop :=
  ∀ b ∈ t.bindings, depth ≤ key.firstDifference b.1

theorem Shares.le {key k v : Digest} {depth : Nat} {t : Tree} (h : Shares key depth t)
    (hBound : (k, v) ∈ t.bindings) : depth ≤ key.firstDifference k := h (k, v) hBound

theorem shares_zero (key : Digest) (t : Tree) : Shares key 0 t := fun _ _ => Nat.zero_le _

theorem shares_empty (key : Digest) (depth : Nat) : Shares key depth .empty := by
  intro b hb
  cases hb

theorem shares_leaf {key k v : Digest} {depth : Nat} :
    Shares key depth (.leaf k v) ↔ depth ≤ key.firstDifference k := by
  simp [Shares, bindings]

theorem Shares.bit_eq {key : Digest} {depth : Nat} {t : Tree} (h : Shares key (depth + 1) t)
    (hDepth : depth < 512) : ∀ b ∈ t.bindings, b.1.bit ⟨depth, hDepth⟩ = key.bit ⟨depth, hDepth⟩ :=
  fun b hb => (Digest.bit_eq_of_lt_firstDifference (i := ⟨depth, hDepth⟩) (h b hb)).symm

theorem Shares.leaf_succ {key k v : Digest} {depth : Nat} (h : Shares key depth (.leaf k v))
    (hDepth : depth < 512) (hBit : k.bit ⟨depth, hDepth⟩ = key.bit ⟨depth, hDepth⟩) :
    Shares key (depth + 1) (.leaf k v) :=
  shares_leaf.mpr (Digest.lt_firstDifference_of (i := ⟨depth, hDepth⟩) (shares_leaf.mp h) hBit.symm)

/-- Nothing but the key itself is bound: the subtrees at which the path of the key ends without
another leaf. -/
def Own (key : Digest) (t : Tree) : Prop := t = .empty ∨ ∃ v, t = .leaf key v

variable [HashFunction]

theorem own_of_width {key : Digest} {t : Tree} (hCanonical : Canonical 512 t)
    (hShares : Shares key 512 t) : Own key t := by
  cases hCanonical with
  | empty => exact .inl rfl
  | @leaf _ k v =>
    have hFirst := Nat.le_antisymm (Digest.firstDifference_le key k) (shares_leaf.mp hShares)
    obtain rfl := Digest.firstDifference_eq_width_iff.mp hFirst
    exact .inr ⟨v, rfl⟩
  | branch hLt => exact absurd hLt (Nat.lt_irrefl 512)

/-! ## One level of an update -/

theorem set_own {key : Digest} {t : Tree} (h : Own key t) (value : Option Digest)
    (levels : List (Fin 512)) : set key value levels t = .ok (ofBinding key value) := by
  rcases h with rfl | ⟨v, rfl⟩
  · cases levels <;> rw [set]
  · cases levels <;> simp [set]

theorem set_branch (key : Digest) (value : Option Digest) (level : Fin 512) (below : List (Fin 512))
    (d : Digest) (zero one : Tree) :
    set key value (level :: below) (.branch d zero one) =
      (graft (key.bit level) · (child (!key.bit level) zero one)) <$>
        set key value below (child (key.bit level) zero one) := by
  rw [set]
  cases key.bit level <;> rfl

theorem set_leaf_of_bit_eq {key k : Digest} {level : Fin 512} (value : Option Digest)
    (below : List (Fin 512)) (v : Digest) (hKey : k ≠ key) (hBit : k.bit level = key.bit level) :
    set key value (level :: below) (.leaf k v) =
      (graft (key.bit level) · .empty) <$> set key value below (.leaf k v) := by
  rw [set, if_neg hKey, hBit]
  cases key.bit level <;> rfl

theorem set_leaf_of_bit_ne {key k : Digest} {level : Fin 512} (value : Option Digest)
    (below : List (Fin 512)) (v : Digest) (hKey : k ≠ key) (hBit : k.bit level ≠ key.bit level) :
    set key value (level :: below) (.leaf k v) =
      (graft (key.bit level) · (.leaf k v)) <$> set key value below .empty := by
  conv_lhs => rw [set, if_neg hKey, Bool.eq_not_of_ne hBit]
  cases key.bit level <;> rfl

theorem Shares.near {key d : Digest} {depth : Nat} {zero one : Tree}
    (h : Shares key depth (.branch d zero one)) (hCanonical : Canonical depth (.branch d zero one))
    (hDepth : depth < 512) : Shares key (depth + 1) (child (key.bit ⟨depth, hDepth⟩) zero one) := by
  intro b hb
  obtain ⟨hMem, hBit⟩ := (hCanonical.mem_child_bindings hDepth _ b).mp hb
  exact Digest.lt_firstDifference_of (i := ⟨depth, hDepth⟩) (h b hMem) hBit.symm

theorem Shares.firstDifference_far {key d k v : Digest} {depth : Nat} {zero one : Tree}
    (h : Shares key depth (.branch d zero one)) (hCanonical : Canonical depth (.branch d zero one))
    (hDepth : depth < 512) (hFar : child (!key.bit ⟨depth, hDepth⟩) zero one = .leaf k v) :
    key.firstDifference k = depth := by
  have hMem : (k, v) ∈ (child (!key.bit ⟨depth, hDepth⟩) zero one).bindings := by
    rw [hFar]
    exact List.mem_singleton_self _
  obtain ⟨hBound, hBit⟩ := (hCanonical.mem_child_bindings hDepth _ _).mp hMem
  apply Digest.firstDifference_eq_of (i := ⟨depth, hDepth⟩) (h.le hBound)
  intro hSame
  exact Bool.self_ne_not _ (hSame.trans hBit)

/-! ## Updates -/

/-- What an update of one key makes of a subtree. -/
structure Updated (key : Digest) (value : Option Digest) (depth : Nat) (t t' : Tree) : Prop where
  canonical : Canonical depth t'
  mem_iff : ∀ b, b ∈ t'.bindings ↔
    (b.1 ≠ key ∧ b ∈ t.bindings) ∨ (b.1 = key ∧ value = some b.2)

theorem Updated.shares {key : Digest} {value : Option Digest} {depth : Nat} {t t' : Tree}
    (h : Updated key value depth t t') (hDepth : depth ≤ 512) (hShares : Shares key depth t) :
    Shares key depth t' := by
  intro b hb
  rcases (h.mem_iff b).mp hb with ⟨-, hMem⟩ | ⟨hKey, -⟩
  · exact hShares b hMem
  · rw [hKey, Digest.firstDifference_self]
    exact hDepth

theorem Updated.ofBinding {key : Digest} {value : Option Digest} {depth : Nat} {t : Tree}
    (hValue : value ≠ some .empty) (h : Own key t) :
    Updated key value depth t (ofBinding key value) := by
  have hOwn : ∀ b ∈ t.bindings, b.1 = key := by
    rcases h with rfl | ⟨v, rfl⟩ <;> simp [bindings]
  cases value with
  | none =>
    refine ⟨.empty, fun b => ?_⟩
    simpa [Tree.ofBinding, bindings] using fun hNe hMem => hNe (hOwn b hMem)
  | some v =>
    refine ⟨.leaf fun hEmpty => hValue (congrArg some hEmpty), fun b => ?_⟩
    have hForeign : ¬ (b.1 ≠ key ∧ b ∈ t.bindings) := fun h => h.1 (hOwn b h.2)
    rw [or_iff_right hForeign, Option.some_inj, eq_comm (a := v)]
    exact List.mem_singleton.trans Prod.ext_iff

/-- An update below one side is an update of the whole. -/
theorem Updated.graft {key : Digest} {value : Option Digest} {depth : Nat} {t near near' far : Tree}
    (hDepth : depth < 512) (hNear : Updated key value (depth + 1) near near')
    (hShares : Shares key (depth + 1) near) (hFar : Canonical (depth + 1) far)
    (hFarBit : ∀ b ∈ far.bindings, b.1.bit ⟨depth, hDepth⟩ = !key.bit ⟨depth, hDepth⟩)
    (hMem : ∀ b, b ∈ t.bindings ↔ b ∈ near.bindings ∨ b ∈ far.bindings) :
    Updated key value depth t (graft (key.bit ⟨depth, hDepth⟩) near' far) := by
  refine ⟨hNear.canonical.graft hDepth hFar ?_ hFarBit, fun b => ?_⟩
  · exact (hNear.shares hDepth hShares).bit_eq hDepth
  · have hFarKey : b ∈ far.bindings → b.1 ≠ key := by
      rintro hb rfl
      exact Bool.self_ne_not _ (hFarBit b hb)
    rw [mem_bindings_graft, hNear.mem_iff, hMem]
    constructor
    · rintro ((⟨hNe, hb⟩ | hOwn) | hb)
      · exact .inl ⟨hNe, .inl hb⟩
      · exact .inr hOwn
      · exact .inl ⟨hFarKey hb, .inr hb⟩
    · rintro (⟨hNe, hb | hb⟩ | hOwn)
      · exact .inl (.inl ⟨hNe, hb⟩)
      · exact .inr hb
      · exact .inl (.inr hOwn)

/-- An update of a canonical subtree succeeds. -/
theorem Canonical.set {key : Digest} {value : Option Digest} {depth : Nat} (hDepth : depth ≤ 512)
    {t : Tree} (hCanonical : Canonical depth t) (hShares : Shares key depth t)
    (hValue : value ≠ some .empty) :
    ∃ t', Tree.set key value (levels.drop depth) t = .ok t' ∧ Updated key value depth t t' := by
  induction hDepth using Nat.decreasingInduction generalizing t with
  | self =>
    have hOwn := own_of_width hCanonical hShares
    exact ⟨_, set_own hOwn value _, .ofBinding hValue hOwn⟩
  | of_succ depth hLt ih =>
    by_cases hOwn : Own key t
    · exact ⟨_, set_own hOwn value _, .ofBinding hValue hOwn⟩
    rw [levels_drop hLt]
    cases t with
    | empty => exact absurd (.inl rfl) hOwn
    | leaf k v =>
      have hKey : k ≠ key := by
        rintro rfl
        exact hOwn (.inr ⟨v, rfl⟩)
      -- The leaf goes down with the key, or the keys part here and make a branch.
      by_cases hBit : k.bit ⟨depth, hLt⟩ = key.bit ⟨depth, hLt⟩
      · have hBelow := hShares.leaf_succ hLt hBit
        obtain ⟨near, hSet, hNear⟩ := ih (hCanonical.leaf_at _) hBelow
        refine ⟨_, ?_, hNear.graft hLt hBelow .empty (by simp [bindings]) (by simp [bindings])⟩
        rw [set_leaf_of_bit_eq value _ v hKey hBit, hSet]
        rfl
      · obtain ⟨near, hSet, hNear⟩ := ih .empty (shares_empty key _)
        refine ⟨_, ?_, hNear.graft hLt (shares_empty key _) (hCanonical.leaf_at _)
          (by simpa [bindings] using Bool.eq_not_of_ne hBit) (by simp [bindings])⟩
        rw [set_leaf_of_bit_ne value _ v hKey hBit, hSet]
        rfl
    | branch d zero one =>
      have hBelow := hShares.near hCanonical hLt
      obtain ⟨near, hSet, hNear⟩ := ih (hCanonical.child _) hBelow
      refine ⟨_, ?_, hNear.graft hLt hBelow (hCanonical.child (!key.bit ⟨depth, hLt⟩)) ?_
        (mem_child_iff _ d zero one)⟩
      · rw [set_branch, hSet]
        rfl
      · exact fun b hb => ((hCanonical.mem_child_bindings hLt _ b).mp hb).2

/-! ## Lookups -/

/-- The path of a key through a branch, from the path through its side and the other side. -/
def serve (key : Digest) (level : Fin 512) (far : Tree) (path : AuditPath) : AuditPath :=
  match far with
  | .leaf k v =>
    if path.leafKey = key then ⟨k, path.siblings.put level v⟩
    else ⟨path.leafKey, path.siblings.put level far.digest⟩
  | _ => ⟨path.leafKey, path.siblings.put level far.digest⟩

theorem lookup_branch (key : Digest) (level : Fin 512) (below : List (Fin 512)) (d : Digest)
    (zero one : Tree) :
    lookup key (level :: below) (.branch d zero one) =
      (fun r => (serve key level (child (!key.bit level) zero one) r.1, r.2)) <$>
        lookup key below (child (key.bit level) zero one) := by
  have hSides : (if key.bit level then (one, zero) else (zero, one)) =
      (child (key.bit level) zero one, child (!key.bit level) zero one) := by
    cases key.bit level <;> rfl
  rw [lookup, hSides]
  generalize child (key.bit level) zero one = near, child (!key.bit level) zero one = far
  dsimp only
  cases lookup key below near with
  | error e => rfl
  | ok r =>
    cases far with
    | empty => rfl
    | leaf k v =>
      change (if r.1.leafKey = key then _ else _) = Except.ok (if r.1.leafKey = key then _ else _, r.2)
      split <;> rfl
    | branch => rfl

/-- The path of a key that ends at the leaf of another key. -/
def foreign (key k v : Digest) (hKey : k ≠ key) : AuditPath :=
  ⟨k, Siblings.empty.put ⟨key.firstDifference k, Digest.firstDifference_lt_iff.mpr hKey.symm⟩ v⟩

theorem lookup_leaf_of_ne {key k : Digest} (levels : List (Fin 512)) (v : Digest) (hKey : k ≠ key) :
    lookup key levels (.leaf k v) = .ok (foreign key k v hKey, none) := by
  have hSet : Siblings.empty.set (key.firstDifference k) v = .ok (foreign key k v hKey).siblings :=
    dif_pos _
  cases levels <;> rw [lookup, if_neg hKey, hSet] <;> rfl

theorem foreign_eq_serve {key k : Digest} {depth : Nat} (v : Digest) (hKey : k ≠ key)
    (hDepth : depth < 512) (hFirst : key.firstDifference k = depth) :
    foreign key k v hKey = serve key ⟨depth, hDepth⟩ (.leaf k v) (.ofKey key) := by
  simp only [foreign, hFirst]
  exact (if_pos rfl).symm

theorem serve_leafKey (key : Digest) (level : Fin 512) (far : Tree) (path : AuditPath) :
    (serve key level far path).leafKey = path.leafKey ∨
      ∃ v, far = .leaf (serve key level far path).leafKey v := by
  cases far with
  | empty => exact .inl rfl
  | leaf k v =>
    rw [serve]
    split
    · exact .inr ⟨v, rfl⟩
    · exact .inl rfl
  | branch => exact .inl rfl

/-- What a lookup says of a subtree: the value of the key, and a path that ends at the key or at
another bound key. -/
structure Served (key : Digest) (t : Tree) (path : AuditPath) (found : Option Digest) : Prop where
  found_iff : ∀ v, found = some v ↔ (key, v) ∈ t.bindings
  leafKey : path.leafKey = key ∨ ∃ v, (path.leafKey, v) ∈ t.bindings

theorem lookup_own {key : Digest} {t : Tree} (h : Own key t) (levels : List (Fin 512)) :
    ∃ found, lookup key levels t = .ok (.ofKey key, found) ∧ Served key t (.ofKey key) found := by
  rcases h with rfl | ⟨v, rfl⟩
  · exact ⟨none, by rw [lookup], by simp [bindings], .inl rfl⟩
  · exact ⟨some v, by cases levels <;> simp [lookup], by simp [bindings, eq_comm], .inl rfl⟩

/-- A lookup in a canonical subtree succeeds. -/
theorem Canonical.lookup {key : Digest} {depth : Nat} {t : Tree} (hCanonical : Canonical depth t)
    (hShares : Shares key depth t) :
    ∃ path found, Tree.lookup key (levels.drop depth) t = .ok (path, found) ∧
      Served key t path found := by
  induction t generalizing depth with
  | empty => exact ⟨_, lookup_own (.inl rfl) _⟩
  | leaf k v =>
    by_cases hKey : k = key
    · subst hKey
      exact ⟨_, lookup_own (.inr ⟨v, rfl⟩) _⟩
    · refine ⟨_, none, lookup_leaf_of_ne _ v hKey, ?_, .inr ⟨v, List.mem_singleton_self _⟩⟩
      simp [bindings, Ne.symm hKey]
  | branch d zero one ihZero ihOne =>
    have hDepth := hCanonical.depth_lt
    have ih : ∀ side, Shares key (depth + 1) (Tree.child side zero one) →
        ∃ path found, Tree.lookup key (levels.drop (depth + 1)) (Tree.child side zero one) =
          .ok (path, found) ∧ Served key (Tree.child side zero one) path found := by
      intro side
      cases side with
      | false => exact ihZero (hCanonical.child false)
      | true => exact ihOne (hCanonical.child true)
    obtain ⟨path, found, hLookup, hServed⟩ := ih _ (hShares.near hCanonical hDepth)
    refine ⟨serve key ⟨depth, hDepth⟩ (Tree.child (!key.bit ⟨depth, hDepth⟩) zero one) path, found, ?_,
      fun v => ?_, ?_⟩
    · rw [levels_drop hDepth, lookup_branch, hLookup]
      rfl
    · rw [hServed.found_iff, hCanonical.mem_child_bindings hDepth]
      exact and_iff_left rfl
    · have hEnd := serve_leafKey key ⟨depth, hDepth⟩
        (Tree.child (!key.bit ⟨depth, hDepth⟩) zero one) path
      generalize serve key ⟨depth, hDepth⟩ (Tree.child (!key.bit ⟨depth, hDepth⟩) zero one) path = served
        at hEnd
      rcases hEnd with hSame | ⟨v, hFar⟩
      · rw [hSame]
        refine hServed.leafKey.imp_right ?_
        rintro ⟨v, hv⟩
        exact ⟨v, (mem_child_iff _ d zero one _).mpr (.inl hv)⟩
      · refine .inr ⟨v, (mem_child_iff (key.bit ⟨depth, hDepth⟩) d zero one _).mpr (.inr ?_)⟩
        rw [hFar]
        exact List.mem_singleton_self _

end Tree

/-! ## Tries under updates -/

namespace Trie

/-- What an insertion stores: nothing for the empty value. -/
def stored (value : Digest) : Option Digest := if value = .empty then none else some value

theorem stored_ne (value : Digest) : stored value ≠ some .empty := by
  rw [stored]
  split
  · simp
  · rename_i hValue
    exact fun h => hValue (Option.some_inj.mp h)

theorem getD_stored (value : Digest) : (stored value).getD .empty = value := by
  rw [stored]
  split
  · rename_i hEmpty
    exact hEmpty.symm
  · rfl

section

variable [HashFunction]

/-- The tries that insertions and removals make of the empty trie. -/
inductive Reachable : Trie → Prop where
  | empty : Reachable .empty
  | insert {t next : Trie} {key value : Digest} :
      Reachable t → t.insert key value = .ok next → Reachable next
  | remove {t next : Trie} {key : Digest} :
      Reachable t → t.remove key = .ok next → Reachable next

/-- A trie binds a key to a value if looking the key up finds that value. -/
def Binds (t : Trie) (key value : Digest) : Prop := ∃ path, t.lookup key = .ok (path, some value)

theorem lookup_of_canonical {t : Trie} (h : t.tree.Canonical 0) (key : Digest) :
    ∃ path found, t.lookup key = .ok (path, found) ∧ Tree.Served key t.tree path found := by
  rw [lookup, ← Tree.levels_drop_zero]
  exact h.lookup (Tree.shares_zero key _)

/-- A lookup finds what is bound. -/
theorem exists_lookup {t : Trie} (h : t.tree.Canonical 0) {key : Digest} {bound : Option Digest}
    (hBound : ∀ value, (key, value) ∈ t.tree.bindings ↔ bound = some value) :
    ∃ path, t.lookup key = .ok (path, bound) := by
  obtain ⟨path, found, hLookup, hServed⟩ := lookup_of_canonical h key
  have hFound : found = bound := by
    apply Option.ext
    intro value
    exact (hServed.found_iff value).trans (hBound value)
  exact ⟨path, hFound ▸ hLookup⟩

theorem insert_of_canonical {t : Trie} (h : t.tree.Canonical 0) (key value : Digest) :
    ∃ next, t.insert key value = .ok next ∧ t.tree.set key (stored value) Tree.levels = .ok next.tree ∧
      Tree.Updated key (stored value) 0 t.tree next.tree := by
  obtain ⟨path, found, hLookup, -⟩ := lookup_of_canonical h key
  obtain ⟨tree, hSet, hUpdated⟩ := h.set (Nat.zero_le 512) (Tree.shares_zero key _)
    (stored_ne value)
  rw [Tree.levels_drop_zero] at hSet
  have hInsert : ∃ size, t.insert key value = .ok ⟨tree, size⟩ := by
    constructor
    rw [insert, hLookup]
    change (t.tree.set key (stored value) Tree.levels >>= _) = _
    rw [hSet]
    rfl
  obtain ⟨size, hInsert⟩ := hInsert
  exact ⟨⟨tree, size⟩, hInsert, hSet, hUpdated⟩

namespace Reachable

theorem canonical {t : Trie} (h : Reachable t) : t.tree.Canonical 0 := by
  induction h with
  | empty => exact .empty
  | @insert t next key value _ hInsert ih =>
    obtain ⟨next', hInsert', -, hUpdated⟩ := insert_of_canonical ih key value
    cases hInsert.symm.trans hInsert'
    exact hUpdated.canonical
  | @remove t next key _ hRemove ih =>
    obtain ⟨next', hInsert', -, hUpdated⟩ := insert_of_canonical ih key .empty
    cases hRemove.symm.trans hInsert'
    exact hUpdated.canonical

theorem binds_iff {t : Trie} (h : Reachable t) {key value : Digest} :
    t.Binds key value ↔ (key, value) ∈ t.tree.bindings := by
  obtain ⟨path, found, hLookup, hServed⟩ := lookup_of_canonical h.canonical key
  rw [Binds, hLookup, ← hServed.found_iff]
  constructor
  · rintro ⟨path', hPath⟩
    cases hPath
    rfl
  · rintro rfl
    exact ⟨path, rfl⟩

end Reachable

/-! ## A trie of two keys -/

/-- A trie of one key. -/
def lone : Trie := ⟨.leaf (.filled 2) (.filled 3), 1⟩

/-- A trie of two keys, which part at the first bit. -/
def pair : Trie :=
  ⟨.branch (.combine (.combine (.filled 2) (.filled 3)) (.combine (.filled 1) (.filled 4)))
    (.leaf (.filled 2) (.filled 3)) (.leaf (.filled 1) (.filled 4)), 2⟩

end

theorem insert_empty : Trie.empty.insert (.filled 2) (.filled 3) = .ok lone := by decide +kernel

theorem insert_lone : lone.insert (.filled 1) (.filled 4) = .ok pair := by decide +kernel

theorem reachable_lone : Reachable lone := .insert .empty insert_empty

theorem reachable_pair : Reachable pair := .insert reachable_lone insert_lone

end Trie

end SignedDirectory
