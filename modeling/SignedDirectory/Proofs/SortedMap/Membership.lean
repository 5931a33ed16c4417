import SignedDirectory.SortedMap

/-!
# What a sorted map binds

Looking a key up finds exactly the binding that is in the list (`get?_eq_some_iff`), so that a map is
determined by its lookups (`ext_get?`); every key is listed once, and the set of a list has the elements
of the list. In the map of a list, and in a union, the last binding of a key counts (`get?_ofList`,
`get?_union`), and the map of a map's own bindings is that map (`ofList_toList`).
-/

namespace SignedDirectory.SortedMap

variable {κ α : Type} [Ord κ]

theorem keys_ascending (m : SortedMap κ α) : m.keys.Pairwise (compare · · = .lt) :=
  List.pairwise_map.mpr m.ascending

variable [Std.LawfulEqOrd κ]

theorem nodup_of_ascending {β : Type} (key : β → κ) {l : List β}
    (h : l.Pairwise fun a b => compare (key a) (key b) = .lt) : l.Nodup := by
  apply h.imp
  rintro b _ hLt rfl
  simp at hLt

theorem keys_nodup (m : SortedMap κ α) : m.keys.Nodup := nodup_of_ascending id m.keys_ascending

/-- Lists in ascending order of keys that have the same members are equal. -/
theorem eq_of_ascending [Std.TransOrd κ] {β : Type} (key : β → κ) {l l' : List β}
    (h : l.Pairwise fun a b => compare (key a) (key b) = .lt)
    (h' : l'.Pairwise fun a b => compare (key a) (key b) = .lt) (hMem : ∀ b, b ∈ l ↔ b ∈ l') : l = l' := by
  have hPerm : l.Perm l' :=
    (List.perm_ext_iff_of_nodup (nodup_of_ascending key h) (nodup_of_ascending key h')).mpr hMem
  refine hPerm.eq_of_pairwise (fun a b _ _ hLt hGt => ?_) h h'
  exact absurd hLt (Std.OrientedCmp.not_lt_of_lt hGt)

variable [DecidableEq κ]

theorem mem_of_find? {k : κ} {a : α} {bindings : List (κ × α)} (h : find? k bindings = some a) :
    (k, a) ∈ bindings := by
  induction bindings with
  | nil => cases h
  | cons b bindings ih =>
    rw [find?_cons] at h
    split at h
    · rename_i hKey
      obtain rfl := Option.some_inj.mp h
      exact hKey ▸ List.mem_cons_self
    · exact List.mem_cons_of_mem _ (ih h)

theorem find?_eq_some_iff {k : κ} {a : α} {bindings : List (κ × α)}
    (h : (bindings.map (·.1)).Nodup) : find? k bindings = some a ↔ (k, a) ∈ bindings := by
  refine ⟨mem_of_find?, fun hMem => ?_⟩
  induction bindings with
  | nil => cases hMem
  | cons b bindings ih =>
    obtain ⟨hFirst, hRest⟩ := List.nodup_cons.mp h
    rw [find?_cons]
    rcases List.mem_cons.mp hMem with rfl | hMem
    · exact if_pos rfl
    · -- The key of the first binding is bound there and nowhere else.
      have hOther : k ≠ b.1 := fun hKey => hFirst (List.mem_map.mpr ⟨(k, a), hMem, hKey⟩)
      rw [if_neg hOther]
      exact ih hRest hMem

theorem get?_eq_some_iff (m : SortedMap κ α) (k : κ) (a : α) :
    m.get? k = some a ↔ (k, a) ∈ m.toList := find?_eq_some_iff m.keys_nodup

theorem contains_iff_mem_keys (m : SortedMap κ α) (k : κ) :
    m.contains k = true ↔ k ∈ m.keys := by
  rw [contains, Option.isSome_iff_exists]
  constructor
  · rintro ⟨a, h⟩
    exact List.mem_map.mpr ⟨(k, a), (get?_eq_some_iff m k a).mp h, rfl⟩
  · intro h
    obtain ⟨⟨k', a⟩, hMem, rfl⟩ := List.mem_map.mp h
    exact ⟨a, (get?_eq_some_iff m k' a).mpr hMem⟩

theorem find?_append (k : κ) (bindings bindings' : List (κ × α)) :
    find? k (bindings ++ bindings') = (find? k bindings).or (find? k bindings') := by
  induction bindings with
  | nil => rfl
  | cons b bindings ih =>
    rw [List.cons_append, find?_cons, find?_cons, ih]
    split <;> rfl

/-- The last binding of a key is the one it has, if no key is bound twice. -/
theorem find?_reverse_eq_some_iff {bindings : List (κ × α)} (h : (bindings.map (·.1)).Nodup) (k : κ)
    (a : α) : find? k bindings.reverse = some a ↔ (k, a) ∈ bindings := by
  have hReverse : (bindings.reverse.map (·.1)).Nodup := by
    rw [List.map_reverse]
    exact List.pairwise_reverse.mpr (h.imp Ne.symm)
  rw [find?_eq_some_iff hReverse, List.mem_reverse]

theorem find?_reverse_toList (m : SortedMap κ α) (k : κ) : find? k m.toList.reverse = m.get? k := by
  apply Option.ext
  intro a
  rw [find?_reverse_eq_some_iff m.keys_nodup, get?_eq_some_iff]

theorem find?_eq_lookup (k : κ) (bindings : List (κ × α)) :
    find? k bindings = bindings.lookup k := by
  induction bindings with
  | nil => rfl
  | cons b bindings ih =>
    rw [find?_cons, List.lookup_cons, ih]
    by_cases hKey : k = b.1
    · rw [if_pos hKey, beq_iff_eq.mpr hKey]
    · rw [if_neg hKey, beq_false_of_ne hKey]

section Order

variable [Std.TransOrd κ]

/-- Maps that bind every key to the same are the same. -/
theorem ext_get? {m m' : SortedMap κ α} (h : ∀ k, m.get? k = m'.get? k) : m = m' := by
  apply SortedMap.ext
  apply eq_of_ascending Prod.fst m.ascending m'.ascending
  rintro ⟨k, a⟩
  rw [← get?_eq_some_iff, ← get?_eq_some_iff, h]

theorem contains_insert (m : SortedMap κ α) (k k' : κ) (a : α) :
    (m.insert k a).contains k' = true ↔ k' = k ∨ m.contains k' = true := by
  rw [contains, get?_insert]
  split
  · rename_i hKey
    simp [hKey]
  · rename_i hKey
    simp [hKey, contains]

theorem contains_foldl_insert (bindings : List (κ × α)) (m : SortedMap κ α) (k : κ) :
    (bindings.foldl (fun m b => m.insert b.1 b.2) m).contains k = true ↔
      k ∈ bindings.map (·.1) ∨ m.contains k = true := by
  induction bindings generalizing m with
  | nil => simp
  | cons b bindings ih =>
    rw [List.foldl_cons, ih, contains_insert, List.map_cons, List.mem_cons]
    exact or_left_comm.trans or_assoc.symm

/-- Of several bindings of one key the last one counts. -/
theorem get?_foldl_insert (bindings : List (κ × α)) (m : SortedMap κ α) (k : κ) :
    (bindings.foldl (fun m b => m.insert b.1 b.2) m).get? k =
      (find? k bindings.reverse).or (m.get? k) := by
  induction bindings generalizing m with
  | nil => rfl
  | cons b bindings ih =>
    rw [List.foldl_cons, ih, List.reverse_cons, find?_append, find?_cons, get?_insert, Option.or_assoc]
    congr 1
    split <;> rfl

theorem get?_ofList (bindings : List (κ × α)) (k : κ) :
    (ofList bindings).get? k = find? k bindings.reverse := by
  rw [ofList, get?_foldl_insert, get?_empty, Option.or_none]

/-- Lists make up the same map if and only if every key has the same last binding in them. -/
theorem ofList_eq_ofList_iff (bindings bindings' : List (κ × α)) :
    ofList bindings = ofList bindings' ↔
      ∀ k, find? k bindings.reverse = find? k bindings'.reverse := by
  simp only [← get?_ofList]
  exact ⟨fun h k => congrArg (·.get? k) h, ext_get?⟩

/-- The map of a list that binds no key twice does not depend on the order of the list. -/
theorem ofList_eq_of_perm {bindings bindings' : List (κ × α)} (hPerm : bindings.Perm bindings')
    (h : (bindings.map (·.1)).Nodup) : ofList bindings = ofList bindings' := by
  apply (ofList_eq_ofList_iff bindings bindings').mpr
  intro k
  apply Option.ext
  intro a
  rw [find?_reverse_eq_some_iff h, hPerm.mem_iff,
    find?_reverse_eq_some_iff ((hPerm.map _).nodup_iff.mp h)]

/-- The map of a list binds nothing that is not listed. -/
theorem mem_of_get?_ofList {bindings : List (κ × α)} {k : κ} {a : α}
    (h : (ofList bindings).get? k = some a) : (k, a) ∈ bindings := by
  rw [get?_ofList] at h
  exact List.mem_reverse.mp (mem_of_find? h)

theorem mem_keys_ofList (bindings : List (κ × α)) (k : κ) :
    k ∈ (ofList bindings).keys ↔ k ∈ bindings.map (·.1) := by
  rw [← contains_iff_mem_keys, ofList, contains_foldl_insert]
  simp [contains]

theorem ofList_toList (m : SortedMap κ α) : ofList m.toList = m := by
  apply ext_get?
  intro k
  rw [get?_ofList, find?_reverse_toList]

theorem get?_union (m m' : SortedMap κ α) (k : κ) :
    (m.union m').get? k = (m'.get? k).or (m.get? k) := by
  rw [union, get?_foldl_insert, find?_reverse_toList]

end Order

end SignedDirectory.SortedMap
