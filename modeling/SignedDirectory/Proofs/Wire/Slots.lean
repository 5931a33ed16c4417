import SignedDirectory.Proofs.Text.ByteOrder
import SignedDirectory.Proofs.Wire.RoundTrip

/-!
# The slots of an entry in the order of a text

The JSON text of an entry may list the slots in any order, and one slot several times. The entry that is
read binds each slot to the last key listed for it (`Entry.read_listed`), so that its digest depends on
nothing else in the list: the bytes that are hashed have every slot once, in the order of the bytes.
-/

namespace SignedDirectory

open Json

/-! ## One member among others -/

namespace Json.Fields

variable {α : Type} {f : Fields α} {name : String} {v v' : Value}

/-- A member may be replaced by one that is always taken in with the same result. -/
theorem members_replace (h : ∀ known, ∃ result, f.member name v.source known = some result ∧
      f.member name v'.source known = some result)
    (before after : List (String × Value)) (known : f.Partial) :
    f.members (memberSources (before ++ (name, v) :: after)) known =
      f.members (memberSources (before ++ (name, v') :: after)) known := by
  induction before generalizing known with
  | nil =>
    obtain ⟨result, hFirst, hFirst'⟩ := h known
    simp only [List.nil_append, memberSources, members, hFirst, hFirst']
  | cons m before ih =>
    simp only [List.cons_append, memberSources, members, ih]

theorem decode_replace (h : ∀ known, ∃ result, f.member name v.source known = some result ∧
      f.member name v'.source known = some result)
    (before after : List (String × Value)) :
    f.decode (Value.object (before ++ (name, v) :: after)).source =
      f.decode (Value.object (before ++ (name, v') :: after)).source := by
  simp only [Value.source, decode, members_replace h]

end Json.Fields

namespace Entry

/-! ## Listed slots -/

/-- An object with the slots and their keys as they are listed. -/
def slotsJson (slots : List (String × String)) : Value :=
  .object (slots.map fun (slot, key) => (slot, .string key))

/-- The JSON of an entry, with its slots as they are listed. -/
def listedJson (name : String) (slots : List (String × String)) (timestamp : UInt64)
    (inRecovery : Bool) : Value :=
  .object [("Name", .string name), ("Keys", slotsJson slots), ("Timestamp", .number timestamp.toNat),
    ("InRecovery", .bool inRecovery)]

/-- The last key that is listed for a slot. -/
def lastKey? (slots : List (String × String)) (slot : String) : Option String :=
  slots.reverse.lookup slot

theorem asMap_slotsJson (slots : List (String × String)) :
    Source.asMap Source.asText (slotsJson slots).source = .ok (.ofList slots) := by
  change SortedMap.ofList <$> Source.asBindings Form.ofJson
    (memberSources (slots.map fun (slot, key) => (slot, toJson key))) = _
  rw [asBindings_source]
  rfl

theorem get?_ofList_slots (slots : List (String × String)) (slot : String) :
    (SortedMap.ofList slots).get? slot = lastKey? slots slot := by
  rw [SortedMap.get?_ofList, SortedMap.find?_eq_lookup, lastKey?]

theorem ofList_eq_iff_lastKey? (slots slots' : List (String × String)) :
    SortedMap.ofList slots = SortedMap.ofList slots' ↔
      ∀ slot, lastKey? slots slot = lastKey? slots' slot := by
  simp only [SortedMap.ofList_eq_ofList_iff, SortedMap.find?_eq_lookup, lastKey?]

/-- A member for the slots is taken in as the map that is read from it. -/
theorem member_slots (slots : List (String × String)) (known : fields.Partial) :
    fields.member "Keys" (slotsJson slots).source known =
      some ((fun keys => (known.1, some keys, known.2.2)) <$>
        if known.2.1.isSome then .error (.duplicateField "Keys") else .ok (.ofList slots)) := by
  obtain ⟨name?, keys?, others⟩ := known
  cases keys? with
  | none =>
    simp [fields, Fields.map, Fields.both, Fields.required, Fields.optional, Fields.field,
      asMap_slotsJson]
  | some keys =>
    simp [fields, Fields.map, Fields.both, Fields.required, Fields.optional, Fields.field]

/-! ## What is hashed -/

/-- What is written for an entry: its name, the number of its slots, every slot with its key, its time
and its flag. -/
def items (name : String) (slots : List (String × String)) (timestamp : UInt64) (inRecovery : Bool) :
    List Encoding.Item :=
  [.text name, .integer slots.length.toUInt64] ++
    slots.flatMap (fun (slot, key) => [.text slot, .text key]) ++
    [.integer timestamp, .flag inRecovery]

theorem encode_eq_items (e : Entry) :
    e.encode = (items e.name e.keys.toList e.timestamp e.inRecovery).flatMap Encoding.Item.encode := by
  simp [encode, items, SortedMap.size, Encoding.Item.encode, List.flatMap_append, List.flatMap_assoc]

theorem slots_ascending (keys : SortedMap String String) :
    keys.toList.Pairwise fun a b => Bytes.ofString a.1 < Bytes.ofString b.1 :=
  keys.ascending.imp fun h => (Bytes.ofString_lt_iff ..).mpr (compareOfLessAndEq_eq_lt.mp h)

/-- The digest of an entry is that of what its slots are bound to, each slot once and in the order of the
bytes. -/
theorem digest_eq_ofData [HashFunction] (e : Entry) :
    ∃ sorted : List (String × String),
      (sorted.Pairwise fun a b => Bytes.ofString a.1 < Bytes.ofString b.1) ∧
      (∀ slot key, (slot, key) ∈ sorted ↔ e.keys.get? slot = some key) ∧
      e.digest = Digest.ofData
        ((items e.name sorted e.timestamp e.inRecovery).flatMap Encoding.Item.encode) := by
  refine ⟨e.keys.toList, slots_ascending e.keys, fun slot key => ?_, ?_⟩
  · exact (e.keys.get?_eq_some_iff slot key).symm
  · rw [digest, encode_eq_items]

/-! ## Entries read -/

theorem ofString_of_source {text : String} {name : String} {slots : List (String × String)}
    {timestamp : UInt64} {inRecovery : Bool}
    (h : Document.ofString text = ⟨(listedJson name slots timestamp inRecovery).source, true⟩) :
    ofString Entry text = .ok ⟨name, .ofList slots, timestamp, inRecovery⟩ := by
  rw [ofString, h, Document.decode]
  exact bind_eq_ok_iff.mpr
    ⟨_, decode_object (asMap_slotsJson slots) name timestamp inRecovery, rfl⟩

theorem ofString_listedJson (name : String) (slots : List (String × String)) (timestamp : UInt64)
    (inRecovery : Bool) :
    ofString Entry (listedJson name slots timestamp inRecovery).compact =
      .ok ⟨name, .ofList slots, timestamp, inRecovery⟩ :=
  ofString_of_source (Document.ofString_compact _)

/-- Slots may be listed in another way inside any object, also one that is not read as an entry. -/
theorem ofString_replace_slots {slots slots' : List (String × String)}
    (h : SortedMap.ofList slots = SortedMap.ofList slots') (before after : List (String × Value)) :
    ofString Entry (Value.object (before ++ ("Keys", slotsJson slots) :: after)).compact =
      ofString Entry (Value.object (before ++ ("Keys", slotsJson slots') :: after)).compact := by
  have hMember : ∀ known, ∃ result,
      fields.member "Keys" (slotsJson slots).source known = some result ∧
      fields.member "Keys" (slotsJson slots').source known = some result := by
    intro known
    refine ⟨_, member_slots slots known, ?_⟩
    rw [h]
    exact member_slots slots' known
  rw [ofString, ofString, Document.ofString_compact, Document.ofString_compact, Document.decode,
    Document.decode]
  exact congrArg (· >>= _) (Fields.decode_replace hMember before after)

/-- An entry is read from its JSON with every slot bound to the last key that is listed for it, however
the text is spaced and escaped, and its digest is that of the slots in the order of their bytes. So lists
with the same last keys, such as permutations of a list that has no slot twice, and only these give the
same entry; in any other object one may stand for the other as well. -/
theorem read_listed [HashFunction] (name : String) (slots : List (String × String))
    (timestamp : UInt64) (inRecovery : Bool) :
    ∃ e : Entry,
      ofString Entry (listedJson name slots timestamp inRecovery).compact = .ok e ∧
      (∀ text, Document.ofString text = ⟨(listedJson name slots timestamp inRecovery).source, true⟩ →
        ofString Entry text = .ok e) ∧
      (e.name = name ∧ e.timestamp = timestamp ∧ e.inRecovery = inRecovery ∧
        ∀ slot, e.keys.get? slot = lastKey? slots slot) ∧
      (∃ sorted : List (String × String),
        (sorted.Pairwise fun a b => Bytes.ofString a.1 < Bytes.ofString b.1) ∧
        (∀ slot key, (slot, key) ∈ sorted ↔ lastKey? slots slot = some key) ∧
        e.digest = Digest.ofData
          ((items name sorted timestamp inRecovery).flatMap Encoding.Item.encode)) ∧
      ∀ slots',
        ((∀ slot, lastKey? slots' slot = lastKey? slots slot) ↔
          ofString Entry (listedJson name slots' timestamp inRecovery).compact = .ok e) ∧
        (slots.Perm slots' → (slots.map (·.1)).Nodup →
          ofString Entry (listedJson name slots' timestamp inRecovery).compact = .ok e) ∧
        ((∀ slot, lastKey? slots' slot = lastKey? slots slot) → ∀ before after,
          ofString Entry (Value.object (before ++ ("Keys", slotsJson slots') :: after)).compact =
            ofString Entry (Value.object (before ++ ("Keys", slotsJson slots) :: after)).compact) := by
  let e : Entry := ⟨name, .ofList slots, timestamp, inRecovery⟩
  refine ⟨e, ofString_listedJson name slots timestamp inRecovery, fun text => ofString_of_source,
    ⟨rfl, rfl, rfl, get?_ofList_slots slots⟩, ?_, fun slots' => ⟨?_, ?_, ?_⟩⟩
  · simp only [← get?_ofList_slots]
    exact e.digest_eq_ofData
  · rw [← ofList_eq_iff_lastKey?, ofString_listedJson]
    simp [e]
  · intro hPerm hNodup
    rw [ofString_listedJson, ← SortedMap.ofList_eq_of_perm hPerm hNodup]
  · intro h before after
    exact ofString_replace_slots ((ofList_eq_iff_lastKey? slots' slots).mpr h) before after

/-- Two slots in one order, in the other one, and with a key that is replaced later on. -/
theorem read_listed_two :
    ∃ e : Entry,
      ofString Entry (listedJson "n" [("a", "2"), ("b", "3")] 1 false).compact = .ok e ∧
      ofString Entry (listedJson "n" [("b", "3"), ("a", "2")] 1 false).compact = .ok e ∧
      ofString Entry (listedJson "n" [("b", "1"), ("a", "2"), ("b", "3")] 1 false).compact = .ok e ∧
      e.keys.get? "b" = some "3" := by
  obtain ⟨e, -, hText, ⟨-, -, -, hKeys⟩, -, hOther⟩ :=
    read_listed "n" [("a", "2"), ("b", "3")] 1 false
  have hLast (slot : String) : lastKey? [("b", "1"), ("a", "2"), ("b", "3")] slot =
      lastKey? [("a", "2"), ("b", "3")] slot := by
    by_cases hSlot : slot = "b"
    · rw [hSlot]
      rfl
    · simp [lastKey?, List.lookup_cons, beq_false_of_ne hSlot]
  exact ⟨e, hText _ (Document.ofString_compact _), (hOther _).2.1 (.swap ..) (by decide),
    (hOther _).1.mp hLast, hKeys "b"⟩

example :
    ofString Entry
        "\x7b\"Timestamp\": 1, \"Keys\": \x7b\"\\u0062\": \"3\", \"a\": \"2\"\x7d, \"Name\": \"n\"\x7d" =
      .ok ⟨"n", .ofList [("a", "2"), ("b", "3")], 1, false⟩ := by
  decide +kernel

end Entry

end SignedDirectory
