import Mathlib.Data.Set.Card
import SignedDirectory.AuditPath
import SignedDirectory.Proofs.SortedMap.Membership
import SignedDirectory.Proofs.Success

/-!
# Siblings as a sparse map

Siblings are determined by the digests at the levels of a path (`ext_get`), and every level has the digest
that was last stored there (`get_replay`). What is stored is exactly what is not empty
(`mem_toList_iff`), so that the number of stored digests is the number of levels that have one.
-/

namespace SignedDirectory.Siblings

theorem of_stored {s : Siblings} {depth : Nat} {digest : Digest}
    (h : s.stored.get? depth = some digest) : depth < Digest.width ∧ digest ≠ .empty :=
  s.stored_level _ ((SortedMap.get?_eq_some_iff _ _ _).mp h)

theorem get?_stored (s : Siblings) (depth : Nat) :
    s.stored.get? depth = if s.get depth = .empty then none else some (s.get depth) := by
  rw [get]
  cases hGet : s.stored.get? depth with
  | none => simp
  | some digest => rw [Option.getD_some, if_neg (of_stored hGet).2]

theorem get_of_width_le (s : Siblings) {depth : Nat} (h : Digest.width ≤ depth) :
    s.get depth = .empty := by
  rw [get]
  cases hGet : s.stored.get? depth with
  | none => rfl
  | some digest => exact absurd (of_stored hGet).1 (Nat.not_lt.mpr h)

/-- Siblings are determined by the digests at the levels of a path. -/
theorem ext_get {s s' : Siblings} (h : ∀ level : Fin 512, s.get level.val = s'.get level.val) :
    s = s' := by
  have hStored : s.stored = s'.stored := by
    apply SortedMap.ext_get?
    intro depth
    rw [get?_stored, get?_stored]
    rcases Nat.lt_or_ge depth Digest.width with hLt | hGe
    · rw [h ⟨depth, hLt⟩]
    · rw [s.get_of_width_le hGe, s'.get_of_width_le hGe]
  cases s
  cases s'
  cases hStored
  rfl

theorem eq_iff_get {s s' : Siblings} : s = s' ↔ ∀ depth, s.get depth = s'.get depth :=
  ⟨fun h _ => h ▸ rfl, fun h => ext_get fun level => h level.val⟩

theorem mem_toList_iff (s : Siblings) (depth : Nat) (digest : Digest) :
    (depth, digest) ∈ s.toList ↔ digest ≠ .empty ∧ s.get depth = digest := by
  rw [toList, ← SortedMap.get?_eq_some_iff, get?_stored]
  split <;> grind

theorem pairwise_levels (s : Siblings) : (s.toList.map (·.1)).Pairwise (· < ·) :=
  List.pairwise_map.mpr (s.stored.ascending.imp Nat.compare_eq_lt.mp)

theorem size_eq_ncard (s : Siblings) : s.size = {depth | s.get depth ≠ .empty}.ncard := by
  have hLevels : {depth | s.get depth ≠ .empty} = ((s.toList.map (·.1)).toFinset : Set Nat) := by
    ext depth
    simp [mem_toList_iff, eq_comm]
  rw [hLevels, Set.ncard_coe_finset, List.toFinset_card_of_nodup (s.pairwise_levels.imp Nat.ne_of_lt)]
  simp [size, SortedMap.size, toList]

/-! ## Writing -/

theorem set_of_lt (s : Siblings) {depth : Nat} (h : depth < Digest.width) (digest : Digest) :
    s.set depth digest = .ok (s.put ⟨depth, h⟩ digest) := dif_pos h

theorem set_of_le (s : Siblings) {depth : Nat} (h : Digest.width ≤ depth) (digest : Digest) :
    s.set depth digest = .error (.depthOutOfRange depth) := dif_neg (Nat.not_lt.mpr h)

theorem get_of_set {s s' : Siblings} {depth : Nat} {digest : Digest}
    (h : s.set depth digest = .ok s') (depth' : Nat) :
    s'.get depth' = if depth' = depth then digest else s.get depth' := by
  rw [set] at h
  split at h
  · cases h
    rw [get_put]
  · cases h

/-- Storing what is there already changes nothing. -/
theorem set_get (s : Siblings) {depth : Nat} (h : depth < Digest.width) :
    s.set depth (s.get depth) = .ok s := by
  rw [set_of_lt s h, Except.ok.injEq, eq_iff_get]
  intro depth'
  rw [get_put]
  grind

/-- Stores the sibling at a level in place. The number is looked at before anything is changed. -/
def store (depth : Nat) (digest : Digest) : EStateM PathError Siblings Unit :=
  if h : depth < Digest.width then modify (·.put ⟨depth, h⟩ digest)
  else throw (.depthOutOfRange depth)

theorem store_of_lt (s : Siblings) {depth : Nat} (h : depth < Digest.width) (digest : Digest) :
    (store depth digest).run s = .ok () (s.put ⟨depth, h⟩ digest) := by
  rw [store, dif_pos h]
  rfl

theorem store_of_le (s : Siblings) {depth : Nat} (h : Digest.width ≤ depth) (digest : Digest) :
    (store depth digest).run s = .error (.depthOutOfRange depth) s := by
  rw [store, dif_neg (Nat.not_lt.mpr h)]
  rfl

/-- What is there after a digest was to be stored, whether or not the level could take it. -/
def attempt (s : Siblings) (depth : Nat) (digest : Digest) : Siblings :=
  match (store depth digest).run s with
  | .ok () s' => s'
  | .error _ s' => s'

theorem attempt_of_le (s : Siblings) {depth : Nat} (h : Digest.width ≤ depth) (digest : Digest) :
    s.attempt depth digest = s := by
  rw [attempt, store_of_le s h]

theorem get_attempt (s : Siblings) (depth : Nat) (digest : Digest) (depth' : Nat) :
    (s.attempt depth digest).get depth' =
      if depth' = depth ∧ depth < Digest.width then digest else s.get depth' := by
  rcases Nat.lt_or_ge depth Digest.width with h | h
  · simp only [attempt, store_of_lt s h, get_put, h, and_true]
  · rw [attempt_of_le s h, if_neg (fun hBoth => Nat.not_lt.mpr h hBoth.2)]

/-- Storing in place and storing in a copy succeed together, with the same siblings. -/
theorem store_eq_ok_iff (s s' : Siblings) (depth : Nat) (digest : Digest) :
    (store depth digest).run s = .ok () s' ↔ s.set depth digest = .ok s' := by
  rcases Nat.lt_or_ge depth Digest.width with h | h
  · simp [store_of_lt s h, set_of_lt s h]
  · simp [store_of_le s h, set_of_le s h]

/-- Stores digests one after the other, and fails at the first level that cannot take one. -/
def replay (s : Siblings) (writes : List (Nat × Digest)) : Except PathError Siblings :=
  writes.foldlM (fun s w => s.set w.1 w.2) s

/-- The digest that was written to a level last, and the empty one if none was. -/
def lastWritten (writes : List (Nat × Digest)) (depth : Nat) : Digest :=
  (SortedMap.find? depth writes.reverse).getD .empty

theorem lastWritten_append (writes : List (Nat × Digest)) (depth : Nat) (digest : Digest)
    (depth' : Nat) : lastWritten (writes ++ [(depth, digest)]) depth' =
      if depth' = depth then digest else lastWritten writes depth' := by
  rw [lastWritten, List.reverse_append, List.reverse_singleton, List.singleton_append,
    SortedMap.find?_cons]
  split <;> rfl

theorem replay_append (s : Siblings) (writes : List (Nat × Digest)) (w : Nat × Digest) :
    s.replay (writes ++ [w]) = s.replay writes >>= fun s' => s'.set w.1 w.2 := by
  simp [replay, List.foldlM_append]

theorem get_replay {writes : List (Nat × Digest)} {s : Siblings}
    (h : replay ∅ writes = .ok s) (depth : Nat) : s.get depth = lastWritten writes depth := by
  induction writes using List.reverseRecOn generalizing s with
  | nil =>
    cases h
    rfl
  | append_singleton writes w ih =>
    rw [replay_append] at h
    obtain ⟨s', hWrites, hSet⟩ := bind_eq_ok_iff.mp h
    rw [get_of_set hSet, ih hWrites, lastWritten_append]

theorem exists_replay_iff (s : Siblings) (writes : List (Nat × Digest)) :
    (∃ s', s.replay writes = .ok s') ↔ ∀ w ∈ writes, w.1 < Digest.width := by
  induction writes generalizing s with
  | nil => simp [replay, pure, Except.pure]
  | cons w writes ih =>
    rw [List.forall_mem_cons]
    rcases Nat.lt_or_ge w.1 Digest.width with hLt | hGe
    · rw [← ih (s.put ⟨w.1, hLt⟩ w.2), and_iff_right hLt]
      simp [replay, set_of_lt s hLt, bind, Except.bind]
    · have hNot : ¬w.1 < Digest.width := Nat.not_lt.mpr hGe
      simp [replay, set_of_le s hGe, bind, Except.bind, hNot]

end SignedDirectory.Siblings
