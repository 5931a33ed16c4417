import SignedDirectory.Proofs.AuditPath.Siblings
import SignedDirectory.Proofs.Digest.Bits
import SignedDirectory.Proofs.Wire.RoundTrip

/-!
# What JSON says of siblings

A JSON value that is read as siblings lists digests with their levels, `writes?`, and the siblings are what
these digests leave when they are stored one after the other (`ofJson_eq_ok_iff`). So siblings have the
same form however they came about (`determined_by_writes`).

An array and the object with the same digests under the places of the array as names are read alike, with
one exception: null is skipped in an array and not looked at, but stands at a level in an object
(`array_eq_object_iff`).
-/

namespace SignedDirectory

open Json

namespace Siblings

/-! ## What is written where -/

/-- A level by its name in an object. -/
def level? (name : String) : Option Nat := Decimal.toNatBelow? UInt64.size name

def memberWrite? : Label × Source → Option (Nat × Digest)
  | (.name name, v) => do
    let digest? ← (v.asOptional Source.asToken).toOption
    let depth ← level? name
    return (depth, digest?.getD .empty)
  | _ => none

def elementWrites? (depth : Nat) : List Source → Option (List (Nat × Digest))
  | [] => some []
  | v :: rest => do
    let digest? ← (v.asOptional Source.asToken).toOption
    let writes ← elementWrites? (depth + 1) rest
    return (digest?.map (depth, ·)).toList ++ writes

/-- The digests that a JSON value lists, in the order of the text. -/
def writes? : Source → Option (List (Nat × Digest))
  | .null => some []
  | .object members => members.mapM memberWrite?
  | .array elements => elementWrites? 0 elements
  | _ => none

theorem addMember_eq_ok_iff {s s' : Siblings} {name : String} {v : Source} :
    s.addMember name v = .ok s' ↔
      ∃ w, memberWrite? (.name name, v) = some w ∧ s.set w.1 w.2 = .ok s' := by
  rw [addMember, bind_eq_ok_iff]
  simp only [memberWrite?, level?, Option.bind_eq_bind, Option.bind_eq_some_iff, toOption_eq_some_iff]
  constructor
  · rintro ⟨digest?, hDigest, h⟩
    split at h
    · cases h
    · rename_i depth hDepth
      exact ⟨_, ⟨digest?, hDigest, depth, hDepth, rfl⟩, mapError_eq_ok_iff.mp h⟩
  · rintro ⟨w, ⟨digest?, hDigest, depth, hDepth, hw⟩, hSet⟩
    cases hw
    refine ⟨digest?, hDigest, ?_⟩
    rw [hDepth]
    exact mapError_eq_ok_iff.mpr hSet

theorem addMembers_eq_ok_iff {members : List (Label × Source)} {s s' : Siblings} :
    s.addMembers members = .ok s' ↔
      ∃ writes, members.mapM memberWrite? = some writes ∧ s.replay writes = .ok s' := by
  induction members generalizing s with
  | nil => simp [addMembers, replay, pure, Except.pure]
  | cons m members ih =>
    obtain ⟨label, v⟩ := m
    simp only [List.mapM_cons, Option.bind_eq_bind, Option.bind_eq_some_iff, Option.pure_def,
      Option.some.injEq]
    cases label with
    | name name =>
      rw [addMembers, bind_eq_ok_iff]
      simp only [addMember_eq_ok_iff, ih]
      constructor
      · rintro ⟨next, ⟨w, hw, hSet⟩, writes, hWrites, hReplay⟩
        exact ⟨w :: writes, ⟨w, hw, writes, hWrites, rfl⟩, bind_eq_ok_iff.mpr ⟨next, hSet, hReplay⟩⟩
      · rintro ⟨_, ⟨w, hw, writes, hWrites, rfl⟩, hReplay⟩
        obtain ⟨next, hSet, hReplay⟩ := bind_eq_ok_iff.mp hReplay
        exact ⟨next, ⟨w, hw, hSet⟩, writes, hWrites, hReplay⟩
    | unreadable => simp [addMembers, memberWrite?]
    | broken => simp [addMembers, memberWrite?]

theorem addElements_eq_ok_iff {elements : List Source} {s s' : Siblings} {depth : Nat} :
    s.addElements depth elements = .ok s' ↔
      ∃ writes, elementWrites? depth elements = some writes ∧ s.replay writes = .ok s' := by
  induction elements generalizing s depth with
  | nil => simp [addElements, elementWrites?, replay, pure, Except.pure]
  | cons v elements ih =>
    rw [addElements, elementWrites?, bind_eq_ok_iff]
    simp only [Option.bind_eq_bind, Option.bind_eq_some_iff, Option.pure_def, Option.some.injEq,
      toOption_eq_some_iff]
    constructor
    · rintro ⟨digest?, hDigest, h⟩
      cases digest? with
      | none =>
        obtain ⟨writes, hWrites, hReplay⟩ := ih.mp h
        exact ⟨writes, ⟨none, hDigest, writes, hWrites, rfl⟩, hReplay⟩
      | some digest =>
        obtain ⟨next, hSet, h⟩ := bind_eq_ok_iff.mp h
        obtain ⟨writes, hWrites, hReplay⟩ := ih.mp h
        exact ⟨(depth, digest) :: writes, ⟨some digest, hDigest, writes, hWrites, rfl⟩,
          bind_eq_ok_iff.mpr ⟨next, mapError_eq_ok_iff.mp hSet, hReplay⟩⟩
    · rintro ⟨_, ⟨digest?, hDigest, writes, hWrites, rfl⟩, hReplay⟩
      refine ⟨digest?, hDigest, ?_⟩
      cases digest? with
      | none => exact ih.mpr ⟨writes, hWrites, hReplay⟩
      | some digest =>
        obtain ⟨next, hSet, hReplay⟩ := bind_eq_ok_iff.mp hReplay
        exact bind_eq_ok_iff.mpr
          ⟨next, mapError_eq_ok_iff.mpr hSet, ih.mpr ⟨writes, hWrites, hReplay⟩⟩

theorem ofJson_eq_ok_iff {v : Source} {s : Siblings} :
    ofJson v = .ok s ↔ ∃ writes, writes? v = some writes ∧ replay ∅ writes = .ok s := by
  cases v with
  | null => simp [ofJson, writes?, replay, pure, Except.pure]
  | object members => exact addMembers_eq_ok_iff
  | array elements => exact addElements_eq_ok_iff
  | _ => simp [ofJson, writes?]

/-! ## The form that all siblings have -/

/-- Siblings that come about from the empty ones, or from JSON, by storing digests, some of which the
levels do not take. The list has the digests that were stored. -/
inductive Reached : List (Nat × Digest) → Siblings → Prop where
  | empty : Reached [] ∅
  | read {v : Source} {writes : List (Nat × Digest)} {s : Siblings} (hWrites : writes? v = some writes)
      (hRead : ofJson v = .ok s) : Reached writes s
  | attempt {writes : List (Nat × Digest)} {s : Siblings} (h : Reached writes s) (depth : Nat)
      (digest : Digest) :
      Reached (writes ++ if depth < Digest.width then [(depth, digest)] else []) (s.attempt depth digest)

theorem Reached.get_eq {writes : List (Nat × Digest)} {s : Siblings} (h : Reached writes s)
    (depth : Nat) : s.get depth = lastWritten writes depth := by
  induction h with
  | empty => rfl
  | read hWrites hRead =>
    obtain ⟨writes', hWrites', hReplay⟩ := ofJson_eq_ok_iff.mp hRead
    obtain rfl := Option.some_inj.mp (hWrites.symm.trans hWrites')
    exact get_replay hReplay depth
  | attempt h depth' digest ih =>
    rw [get_attempt, ih]
    split
    · rename_i hHere
      rw [if_pos hHere.2, lastWritten_append, if_pos hHere.1]
    · rename_i hElsewhere
      split
      · rename_i hStored
        rw [lastWritten_append, if_neg (fun hEq => hElsewhere ⟨hEq, hStored⟩)]
      · rw [List.append_nil]

/-- A digest, or null for the empty one, as it may stand in JSON. -/
def ofDigest? : Option Digest → Source
  | none => .null
  | some digest => .string (toToken digest)

theorem asOptional_ofDigest? (digest? : Option Digest) :
    (ofDigest? digest?).asOptional Source.asToken = .ok digest? := by
  cases digest? with
  | none => rfl
  | some digest => exact map_eq_ok_iff.mpr ⟨digest, ofJson_source digest, rfl⟩

theorem memberWrite?_ofDigest? (m : String × Option Digest) :
    memberWrite? (.name m.1, ofDigest? m.2) = (level? m.1).map (·, m.2.getD .empty) := by
  rw [memberWrite?, asOptional_ofDigest?]
  cases level? m.1 <;> rfl

/-- The object with these members. -/
def ofMembers (members : List (String × Option Digest)) : Source :=
  .object (members.map fun m => (.name m.1, ofDigest? m.2))

/-- What the members of an object list: digests with their levels, if every name is that of a level. -/
def memberWrites? (members : List (String × Option Digest)) : Option (List (Nat × Digest)) :=
  members.mapM fun m => (level? m.1).map (·, m.2.getD .empty)

theorem writes?_ofMembers (members : List (String × Option Digest)) :
    writes? (ofMembers members) = memberWrites? members := by
  rw [ofMembers, writes?, List.mapM_map]
  simp only [Function.comp_def, memberWrite?_ofDigest?, memberWrites?]

theorem ofJson_ofMembers_eq_ok_iff {members : List (String × Option Digest)} {s : Siblings} :
    ofJson (ofMembers members) = .ok s ↔
      ∃ writes, memberWrites? members = some writes ∧ replay ∅ writes = .ok s := by
  rw [ofJson_eq_ok_iff, writes?_ofMembers]

theorem exists_mapM_iff {α β : Type} {f : α → Option β} {p : β → Prop} {as : List α} :
    (∃ bs, as.mapM f = some bs ∧ ∀ b ∈ bs, p b) ↔ ∀ a ∈ as, ∃ b, f a = some b ∧ p b := by
  induction as with
  | nil => simp
  | cons a as ih =>
    rw [List.forall_mem_cons, ← ih]
    simp only [List.mapM_cons, Option.bind_eq_bind, Option.bind_eq_some_iff, Option.pure_def,
      Option.some.injEq]
    constructor
    · rintro ⟨_, ⟨b, hb, bs, hbs, rfl⟩, hAll⟩
      obtain ⟨hFirst, hRest⟩ := List.forall_mem_cons.mp hAll
      exact ⟨⟨b, hb, hFirst⟩, bs, hbs, hRest⟩
    · rintro ⟨⟨b, hb, hFirst⟩, bs, hbs, hRest⟩
      exact ⟨b :: bs, ⟨b, hb, bs, hbs, rfl⟩, List.forall_mem_cons.mpr ⟨hFirst, hRest⟩⟩

theorem exists_ofJson_iff (members : List (String × Option Digest)) :
    (∃ s, ofJson (ofMembers members) = .ok s) ↔
      ∀ m ∈ members, ∃ depth, level? m.1 = some depth ∧ depth < Digest.width := by
  simp only [ofJson_ofMembers_eq_ok_iff]
  rw [exists_comm]
  simp only [exists_and_left, exists_replay_iff, memberWrites?, exists_mapM_iff, Option.map_eq_some_iff]
  refine forall₂_congr fun m _ => ?_
  constructor
  · rintro ⟨_, ⟨depth, hDepth, rfl⟩, hLt⟩
    exact ⟨depth, hDepth, hLt⟩
  · rintro ⟨depth, hDepth, hLt⟩
    exact ⟨_, ⟨depth, hDepth, rfl⟩, hLt⟩

/-- Siblings hold the digests that were stored last and are not empty, in ascending order of their levels,
and are equal if they have the same digest everywhere. What is stored at a number that is no level is refused
and leaves them as they are. They are read from an object exactly if each name
is that of a level, in any spelling, and are then what storing its members one by one makes of them. -/
theorem determined_by_writes :
    (∀ writes s, Reached writes s →
      (∀ depth digest, (depth, digest) ∈ s.toList ↔
        depth < Digest.width ∧ digest ≠ .empty ∧ lastWritten writes depth = digest) ∧
      (∀ depth, s.get depth = lastWritten writes depth) ∧
      (∀ depth digest, Digest.width ≤ depth →
        s.set depth digest = .error (.depthOutOfRange depth) ∧
          (store depth digest).run s = .error (.depthOutOfRange depth) s ∧
          s.attempt depth digest = s) ∧
      (∀ depth digest s', (store depth digest).run s = .ok () s' ↔ s.set depth digest = .ok s') ∧
      s.size = {depth | s.get depth ≠ .empty}.ncard ∧
      (s.toList.map (·.1)).Pairwise (· < ·) ∧
      toJson s = .object (s.toList.map fun b => (toString b.1, .string (toToken b.2))) ∧
      ∀ writes' s', Reached writes' s' → (s = s' ↔ ∀ depth, s.get depth = s'.get depth)) ∧
    (∀ members s, ofJson (ofMembers members) = .ok s ↔
      ∃ writes, memberWrites? members = some writes ∧ replay ∅ writes = .ok s) ∧
    (∀ members, (∃ s, ofJson (ofMembers members) = .ok s) ↔
      ∀ m ∈ members, ∃ depth, level? m.1 = some depth ∧ depth < Digest.width) ∧
    ∀ name depth, level? name = some depth ↔ ∃ digits,
      (name.toList = digits ∨ name.toList = '+' :: digits) ∧ digits ≠ [] ∧
      (∀ ch ∈ digits, Decimal.isDigit ch = true) ∧ Decimal.ofDigits digits = depth ∧
      depth < UInt64.size := by
  refine ⟨fun writes s h => ⟨fun depth digest => ?_, h.get_eq, fun depth digest hDepth => ?_,
    fun depth digest s' => store_eq_ok_iff s s' depth digest, s.size_eq_ncard, s.pairwise_levels, rfl,
    fun _ _ _ => eq_iff_get⟩,
    fun _ _ => ofJson_ofMembers_eq_ok_iff, exists_ofJson_iff,
    fun _ _ => Decimal.toNatBelow?_eq_some_iff⟩
  · rw [mem_toList_iff, h.get_eq]
    constructor
    · rintro ⟨hNe, hLast⟩
      refine ⟨?_, hNe, hLast⟩
      by_contra hDepth
      rw [← h.get_eq, s.get_of_width_le (Nat.not_lt.mp hDepth)] at hLast
      exact hNe hLast.symm
    · rintro ⟨-, hNe, hLast⟩
      exact ⟨hNe, hLast⟩
  · exact ⟨s.set_of_le hDepth digest, s.store_of_le hDepth digest, s.attempt_of_le hDepth digest⟩

/-- Two spellings of one level: null clears what stood there before. -/
def respelled : List (String × Option Digest) :=
  [("+7", some (.filled 1)), ("3", some (.filled 2)), ("007", none)]

theorem get_of_respelled :
    Reached [(7, .filled 1), (3, .filled 2), (7, .empty)] (empty.put 3 (.filled 2)) ∧
      ofJson (ofMembers respelled) = .ok (empty.put 3 (.filled 2)) ∧
      (empty.put 3 (.filled 2)).get 7 = .empty ∧
      (store 600 (.filled 3)).run (empty.put 3 (.filled 2)) =
        .error (.depthOutOfRange 600) (empty.put 3 (.filled 2)) ∧
      (empty.put 3 (.filled 2)).attempt 600 (.filled 3) = empty.put 3 (.filled 2) := by
  have hWrites : memberWrites? respelled = some [(7, .filled 1), (3, .filled 2), (7, .empty)] := by
    decide +kernel
  have hRead : ofJson (ofMembers respelled) = .ok (empty.put 3 (.filled 2)) :=
    (determined_by_writes.2.1 _ _).mpr ⟨_, hWrites, by decide +kernel⟩
  have hReached : Reached [(7, .filled 1), (3, .filled 2), (7, .empty)] (empty.put 3 (.filled 2)) :=
    .read ((writes?_ofMembers respelled).trans hWrites) hRead
  obtain ⟨-, hGet, hRange, -⟩ := determined_by_writes.1 _ _ hReached
  exact ⟨hReached, hRead, hGet 7, (hRange 600 (.filled 3) (by decide)).2⟩

/-! ## Arrays -/

/-- The elements of an array under their places as names. -/
def numbered (depth : Nat) (elements : List Source) : List (Label × Source) :=
  (elements.zipIdx depth).map fun e => (.name (toString e.2), e.1)

/-- A digest or null. -/
def asDigest? (v : Source) : Except Fault (Option Digest) := v.asOptional Source.asToken

/-- Takes in an element at a level, unless it is null. -/
def addElement (s : Siblings) (depth : Nat) : Option Digest → Except Fault Siblings
  | none => .ok s
  | some digest => (s.set depth digest).mapError .path

theorem addElements_cons (s : Siblings) (depth : Nat) (v : Source) (elements : List Source) :
    s.addElements depth (v :: elements) =
      (asDigest? v >>= s.addElement depth) >>= fun next => next.addElements (depth + 1) elements := by
  rw [addElements, asDigest?]
  rcases v.asOptional Source.asToken with e | (_ | digest) <;> rfl

theorem addMembers_numbered_cons (s : Siblings) {depth : Nat} (h : depth ≤ Digest.width) (v : Source)
    (elements : List Source) :
    s.addMembers (numbered depth (v :: elements)) =
      (asDigest? v >>= fun digest? => (s.set depth (digest?.getD .empty)).mapError .path) >>=
        fun next => next.addMembers (numbered (depth + 1) elements) := by
  have hLevel : Decimal.toNatBelow? UInt64.size (toString depth) = some depth :=
    Decimal.toNatBelow?_toString (Nat.lt_of_le_of_lt h (by decide))
  rw [numbered, List.zipIdx_cons, List.map_cons, addMembers, addMember]
  simp only [hLevel]
  rfl

theorem addElements_append (s : Siblings) (depth : Nat) (before after : List Source) :
    s.addElements depth (before ++ after) =
      s.addElements depth before >>= fun next => next.addElements (depth + before.length) after := by
  induction before generalizing s depth with
  | nil => rfl
  | cons v before ih =>
    rw [List.cons_append, addElements_cons, addElements_cons, List.length_cons,
      Nat.add_comm before.length, ← Nat.add_assoc]
    simp only [ih, bind_assoc]

theorem addMembers_append (s : Siblings) (before after : List (Label × Source)) :
    s.addMembers (before ++ after) = s.addMembers before >>= fun next => next.addMembers after := by
  induction before generalizing s with
  | nil => rfl
  | cons m before ih =>
    obtain ⟨label, v⟩ := m
    cases label with
    | name name =>
      rw [List.cons_append, addMembers, addMembers]
      simp only [ih, bind_assoc]
    | unreadable => rfl
    | broken => rfl

/-- As far as there are levels, elements are taken in as the members that have their places as names. -/
theorem addElements_eq_addMembers {elements : List Source} {depth : Nat} {s : Siblings}
    (hLevels : depth + elements.length ≤ Digest.width) (hFree : ∀ d ≥ depth, s.get d = .empty) :
    s.addElements depth elements = s.addMembers (numbered depth elements) := by
  induction elements generalizing depth s with
  | nil => rfl
  | cons v elements ih =>
    rw [List.length_cons] at hLevels
    have hDepth : depth < Digest.width := by omega
    -- Clearing a level that is free changes nothing, so that null is the empty digest here.
    have hClear : s.set depth .empty = .ok s := hFree depth le_rfl ▸ s.set_get hDepth
    rw [addElements_cons, addMembers_numbered_cons s hDepth.le]
    rcases asDigest? v with e | (_ | digest)
    · rfl
    · change s.addElements (depth + 1) elements = (s.set depth .empty).mapError Fault.path >>= _
      rw [hClear]
      exact ih (by omega) fun d hd => hFree d (by omega)
    · change (s.set depth digest).mapError Fault.path >>= _ = (s.set depth digest).mapError Fault.path >>= _
      rw [set_of_lt s hDepth]
      refine ih (by omega) fun d hd => ?_
      rw [get_put, if_neg (by simp; omega)]
      exact hFree d (by omega)

theorem exists_addElements {elements : List Source} {depth : Nat} {s : Siblings}
    (hLevels : depth + elements.length ≤ Digest.width) :
    (∃ s', s.addElements depth elements = .ok s') ↔
      ∀ v ∈ elements, ∃ digest?, asDigest? v = .ok digest? := by
  induction elements generalizing depth s with
  | nil => simp [addElements]
  | cons v elements ih =>
    rw [List.length_cons] at hLevels
    have hDepth : depth < Digest.width := by omega
    rw [addElements_cons, List.forall_mem_cons]
    rcases asDigest? v with e | (_ | digest)
    · simp [bind, Except.bind]
    · have hRest := ih (s := s) (by omega : depth + 1 + elements.length ≤ Digest.width)
      simpa [addElement, bind, Except.bind] using hRest
    · have hRest := ih (s := s.put ⟨depth, hDepth⟩ digest)
        (by omega : depth + 1 + elements.length ≤ Digest.width)
      simpa [addElement, set_of_lt s hDepth, bind, Except.bind, Except.mapError] using hRest

theorem asDigest?_eq_none_iff (v : Source) : asDigest? v = .ok none ↔ v = .null := by
  constructor
  · intro h
    cases v with
    | null => rfl
    | _ =>
      obtain ⟨digest, -, hSome⟩ := map_eq_ok_iff.mp (h : some <$> _ = Except.ok none)
      cases hSome
  · rintro rfl
    rfl

theorem asDigest?_ne_path (v : Source) (e : PathError) : asDigest? v ≠ .error (.path e) := by
  cases v with
  | string text =>
    change some <$> (TokenForm.ofToken text : Except FormatError Digest).mapError Fault.format ≠ _
    cases (TokenForm.ofToken text : Except FormatError Digest) <;> simp [Except.mapError]
  | _ => simp [asDigest?, Source.asOptional, Source.asToken, Source.asText, Source.mismatch, bind,
      Except.bind]

/-- An array is not refused for a level in front of it. -/
theorem le_of_addElements_eq_error {elements : List Source} {s : Siblings} {depth level : Nat}
    (h : s.addElements depth elements = .error (.path (.depthOutOfRange level))) : depth ≤ level := by
  induction elements generalizing s depth with
  | nil => cases h
  | cons v elements ih =>
    rw [addElements_cons] at h
    rcases bind_eq_error_iff.mp h with hFirst | ⟨next, -, hRest⟩
    · rcases bind_eq_error_iff.mp hFirst with hDigest | ⟨digest?, -, hAdd⟩
      · exact absurd hDigest (asDigest?_ne_path v _)
      · cases digest? with
        | none => cases hAdd
        | some digest =>
          obtain ⟨e, hSet, hPath⟩ := mapError_eq_error_iff.mp hAdd
          rw [set] at hSet
          split at hSet <;> cases hSet
          cases hPath
          exact le_rfl
    · exact Nat.le_of_succ_le (ih hRest)

/-- The first place without a level tells an array from an object if null stands there. -/
theorem addElements_eq_addMembers_width_iff (s : Siblings) (v : Source) (after : List Source) :
    s.addElements Digest.width (v :: after) = s.addMembers (numbered Digest.width (v :: after)) ↔
      v ≠ .null := by
  rw [Ne, ← (asDigest?_eq_none_iff v).not, addElements_cons, addMembers_numbered_cons s le_rfl]
  rcases asDigest? v with e | (_ | digest)
  · simp [bind, Except.bind]
  · have hObject : (s.set Digest.width .empty).mapError Fault.path =
        .error (.path (.depthOutOfRange Digest.width)) := by
      rw [set_of_le s le_rfl]
      rfl
    refine iff_of_false (fun hEq => ?_) (not_not_intro rfl)
    change s.addElements (Digest.width + 1) after =
      ((s.set Digest.width .empty).mapError Fault.path >>= _) at hEq
    rw [hObject] at hEq
    exact absurd (le_of_addElements_eq_error hEq) (Nat.not_succ_le_self _)
  · simp [addElement, set_of_le s le_rfl, bind, Except.bind, Except.mapError]

/-- Null stands at the first place without a level, and nothing in front of it is refused. -/
def NullBeyond (elements : List Source) : Prop :=
  ∃ before after, elements = before ++ .null :: after ∧ before.length = Digest.width ∧
    ∀ v ∈ before, ∃ digest?, asDigest? v = .ok digest?

theorem ofJson_array_append {before : List Source} (h : before.length = Digest.width)
    (after : List Source) : ofJson (.array (before ++ after)) =
      addElements ∅ 0 before >>= fun s => s.addElements Digest.width after := by
  change addElements ∅ 0 (before ++ after) = _
  rw [addElements_append, h, Nat.zero_add]

theorem ofJson_numbered_append {before : List Source} (h : before.length = Digest.width)
    (after : List Source) : ofJson (.object (numbered 0 (before ++ after))) =
      addElements ∅ 0 before >>= fun s => s.addMembers (numbered Digest.width after) := by
  have hNumbered : numbered 0 (before ++ after) = numbered 0 before ++ numbered Digest.width after := by
    rw [numbered, List.zipIdx_append, List.map_append, h, Nat.zero_add]
    rfl
  change addMembers ∅ (numbered 0 (before ++ after)) = _
  rw [hNumbered, addMembers_append, addElements_eq_addMembers (by omega) fun _ _ => rfl]

theorem ofJson_array_eq_iff (elements : List Source) :
    ofJson (.array elements) = ofJson (.object (numbered 0 elements)) ↔ ¬NullBeyond elements := by
  rcases Nat.lt_or_ge Digest.width elements.length with hLong | hShort
  · obtain ⟨before, v, after, rfl, hBefore⟩ : ∃ before v after,
        elements = before ++ v :: after ∧ before.length = Digest.width := by
      refine ⟨_, elements[Digest.width], elements.drop (Digest.width + 1), ?_,
        List.length_take_of_le hLong.le⟩
      rw [List.getElem_cons_drop, List.take_append_drop]
    have hBeyond : NullBeyond (before ++ v :: after) ↔
        v = .null ∧ ∃ s, addElements ∅ 0 before = .ok s := by
      rw [exists_addElements (by omega)]
      constructor
      · rintro ⟨before', after', hEq, hBefore', hRead⟩
        obtain ⟨rfl, hTail⟩ := List.append_inj hEq (hBefore.trans hBefore'.symm)
        exact ⟨(List.cons.inj hTail).1, hRead⟩
      · rintro ⟨rfl, hRead⟩
        exact ⟨before, after, rfl, hBefore, hRead⟩
    rw [hBeyond, ofJson_array_append hBefore, ofJson_numbered_append hBefore]
    cases addElements ∅ 0 before with
    | error e => simp [bind, Except.bind]
    | ok s =>
      change s.addElements Digest.width (v :: after) =
        s.addMembers (numbered Digest.width (v :: after)) ↔ _
      rw [addElements_eq_addMembers_width_iff]
      simp
  · refine iff_of_true (addElements_eq_addMembers (by omega) fun _ _ => rfl) ?_
    rintro ⟨before, after, rfl, hBefore, -⟩
    simp [hBefore] at hShort

theorem ofJson_numbered_of_nullBeyond {elements : List Source} (h : NullBeyond elements) :
    ofJson (.object (numbered 0 elements)) = .error (.path (.depthOutOfRange Digest.width)) := by
  obtain ⟨before, after, rfl, hBefore, hRead⟩ := h
  obtain ⟨s, hs⟩ := (exists_addElements (s := ∅) (by omega : 0 + before.length ≤ Digest.width)).mpr hRead
  rw [ofJson_numbered_append hBefore, hs]
  change s.addMembers (numbered Digest.width (.null :: after)) = _
  rw [addMembers_numbered_cons s le_rfl]
  change (s.set Digest.width .empty).mapError Fault.path >>= _ = _
  rw [set_of_le s le_rfl]
  rfl

theorem get_of_addElements {elements : List Source} {s s' : Siblings} {depth level : Nat}
    (h : s.addElements depth elements = .ok s') (hLevel : depth + elements.length ≤ level) :
    s'.get level = s.get level := by
  induction elements generalizing s depth with
  | nil =>
    cases h
    rfl
  | cons v elements ih =>
    rw [List.length_cons] at hLevel
    rw [addElements_cons] at h
    obtain ⟨next, hFirst, hRest⟩ := bind_eq_ok_iff.mp h
    obtain ⟨digest?, -, hAdd⟩ := bind_eq_ok_iff.mp hFirst
    rw [ih hRest (by omega)]
    cases digest? with
    | none =>
      cases hAdd
      rfl
    | some digest => rw [get_of_set (mapError_eq_ok_iff.mp hAdd), if_neg (by omega)]

theorem asDigest?_token (digest : Digest) : asDigest? (.string (toToken digest)) = .ok (some digest) :=
  asOptional_ofDigest? (some digest)

section

variable {v : Source} (hv : asDigest? v = .ok (some .empty))
include hv

/-- At a level that nothing has been stored at, null and the empty digest are the same. -/
theorem ofJson_array_blank {before : List Source} (h : before.length < Digest.width)
    (after : List Source) :
    ofJson (.array (before ++ .null :: after)) = ofJson (.array (before ++ v :: after)) := by
  change addElements ∅ 0 _ = addElements ∅ 0 _
  rw [addElements_append, addElements_append]
  cases hBefore : addElements ∅ 0 before with
  | error e => rfl
  | ok s =>
    change s.addElements (0 + before.length) _ = s.addElements (0 + before.length) _
    have hClear : s.set (0 + before.length) .empty = .ok s := by
      have hFree : s.get (0 + before.length) = .empty := get_of_addElements hBefore le_rfl
      exact hFree ▸ s.set_get (by omega)
    rw [addElements_cons, addElements_cons, hv, (asDigest?_eq_none_iff _).mpr rfl]
    change _ = (s.set (0 + before.length) .empty).mapError Fault.path >>= _
    rw [hClear]
    rfl

theorem ofJson_object_blank (before : List (Label × Source)) (name : String)
    (after : List (Label × Source)) :
    ofJson (.object (before ++ (.name name, .null) :: after)) =
      ofJson (.object (before ++ (.name name, v) :: after)) := by
  have hMember : ∀ s : Siblings, s.addMember name .null = s.addMember name v := by
    intro s
    rw [asDigest?] at hv
    rw [addMember, addMember, hv]
    rfl
  change addMembers ∅ _ = addMembers ∅ _
  simp only [addMembers_append, addMembers, hMember]

end

/-- A path to a leaf with the siblings that a JSON value gives. -/
def pathWith (leafKey : Digest) (v : Source) : Except Fault AuditPath :=
  AuditPath.fields.decode
    (.object [(.name "LeafKey", .string (toToken leafKey)), (.name "Hashes", v)])

theorem pathWith_eq (leafKey : Digest) (v : Source) :
    pathWith leafKey v = (⟨leafKey, ·⟩) <$> ofJson v := by
  have hKey : (Source.asToken (.string (toToken leafKey)) : Except Fault Digest) = .ok leafKey :=
    ofJson_source leafKey
  simp only [pathWith, AuditPath.fields, Fields.decode, Fields.members, Fields.map, Fields.both,
    Fields.required, Fields.optional, Fields.field, hKey]
  cases ofJson v <;> rfl

/-- An array of digests and nulls gives the path that the object with its places as names gives, or fails
as that one does, unless null stands at the first place without a level and is the first thing to be
refused there. Null and the empty digest are the same at a level and in an object. -/
theorem array_eq_object_iff (leafKey : Digest) (elements : List Source) :
    (pathWith leafKey (.array elements) = pathWith leafKey (.object (numbered 0 elements)) ↔
      ¬NullBeyond elements) ∧
    (NullBeyond elements → pathWith leafKey (.object (numbered 0 elements)) =
      .error (.path (.depthOutOfRange Digest.width))) ∧
    (∀ v, pathWith leafKey v = (⟨leafKey, ·⟩) <$> ofJson v) ∧
    (∀ before after, before.length < Digest.width →
      ofJson (.array (before ++ .null :: after)) =
        ofJson (.array (before ++ .string (toToken Digest.empty) :: after))) ∧
    ∀ before name after,
      ofJson (.object (before ++ (.name name, .null) :: after)) =
        ofJson (.object (before ++ (.name name, .string (toToken Digest.empty)) :: after)) := by
  refine ⟨?_, fun hBeyond => ?_, pathWith_eq leafKey, fun _ after hBefore =>
    ofJson_array_blank (asDigest?_token .empty) hBefore after,
    ofJson_object_blank (asDigest?_token .empty)⟩
  · rw [pathWith_eq, pathWith_eq, ← ofJson_array_eq_iff]
    cases ofJson (.array elements) <;> cases ofJson (.object (numbered 0 elements)) <;> simp
  · rw [pathWith_eq, ofJson_numbered_of_nullBeyond hBeyond]
    rfl

theorem addElements_nulls (s : Siblings) (depth n : Nat) :
    s.addElements depth (List.replicate n .null) = .ok s := by
  induction n generalizing depth with
  | zero => rfl
  | succ n ih => exact ih (depth + 1)

theorem array_ne_object_of_nulls :
    ofJson (.array (List.replicate 513 .null)) = .ok ∅ ∧
      ofJson (.object (numbered 0 (List.replicate 513 .null))) =
        .error (.path (.depthOutOfRange 512)) := by
  refine ⟨addElements_nulls ∅ 0 513, ofJson_numbered_of_nullBeyond ?_⟩
  refine ⟨List.replicate 512 .null, [], List.replicate_succ', List.length_replicate, fun v hv => ?_⟩
  obtain rfl := List.eq_of_mem_replicate hv
  exact ⟨none, rfl⟩

end Siblings

end SignedDirectory
