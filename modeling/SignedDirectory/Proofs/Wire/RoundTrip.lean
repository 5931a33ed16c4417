import SignedDirectory.Proofs.Json.Typed
import SignedDirectory.Proofs.Token.Kinds
import SignedDirectory.Verification
import SignedDirectory.Wire.Lookup

/-!
# Records and lookups survive their JSON texts

Every entry, root, audit path and lookup is read back from the text that is written for it, whatever
texts, keys and levels it holds (`Lookup.read_back`). A level is written in decimal and read as the same
level, and the levels of a path come in ascending order with a digest that is not empty, so that adding
them one by one makes up the path again.
-/

namespace SignedDirectory

open Json

instance : LawfulForm Digest := lawful_of_token fun d => (Digest.ofToken_eq_ok_iff _ d).mpr rfl

instance : LawfulForm Signature := lawful_of_token fun s => (Signature.ofToken_eq_ok_iff _ s).mpr rfl

/-! ## Audit paths -/

namespace Decimal

/-- A number is read from its digits, behind one plus sign or none, if it is below the bound. -/
theorem toNatBelow?_eq_some_iff {bound n : Nat} {text : String} :
    toNatBelow? bound text = some n ↔ ∃ digits,
      (text.toList = digits ∨ text.toList = '+' :: digits) ∧ digits ≠ [] ∧
      (∀ ch ∈ digits, isDigit ch = true) ∧ ofDigits digits = n ∧ n < bound := by
  unfold toNatBelow?
  extract_lets digits
  -- The digits are what the sign leaves, and a sign is no digit.
  have hText : text.toList = digits ∧ digits.head? ≠ some '+' ∨ text.toList = '+' :: digits := by
    unfold digits
    split
    · rename_i rest hSign
      exact .inr hSign
    · rename_i hSign
      refine .inl ⟨rfl, fun hHead => ?_⟩
      obtain ⟨rest, hRest⟩ := List.head?_eq_some_iff.mp hHead
      exact hSign rest hRest
  simp only [Option.ite_none_right_eq_some, Option.some.injEq, List.all_eq_true]
  constructor
  · rintro ⟨⟨hNe, hAll, hBound⟩, rfl⟩
    exact ⟨digits, hText.imp_left And.left, hNe, hAll, rfl, hBound⟩
  · rintro ⟨digits', hText', hNe, hAll, rfl, hBound⟩
    have hSame : digits = digits' := by
      cases digits' with
      | nil => exact absurd rfl hNe
      | cons ch rest =>
        have hSign : ch ≠ '+' := by
          rintro rfl
          exact absurd (hAll '+' List.mem_cons_self) (by decide)
        grind
    rw [hSame]
    exact ⟨⟨hNe, hAll, hBound⟩, rfl⟩

theorem toNatBelow?_toString {n bound : Nat} (h : n < bound) :
    toNatBelow? bound (toString n) = some n := by
  refine toNatBelow?_eq_some_iff.mpr ⟨Json.decimal n, .inl ?_, Json.decimal_ne_nil n,
    fun _ => Json.isDigit_of_mem_decimal, Json.ofDigits_decimal n, h⟩
  rw [Nat.toString_eq_ofList_toDigits, String.toList_ofList, Json.decimal]

end Decimal

namespace Siblings

theorem set_of_ne_empty (s : Siblings) {depth : Nat} {digest : Digest} (hDepth : depth < Digest.width)
    (hDigest : digest ≠ .empty) :
    ∃ s', s.set depth digest = .ok s' ∧ s'.stored = s.stored.insert depth digest := by
  refine ⟨s.put ⟨depth, hDepth⟩ digest, dif_pos hDepth, ?_⟩
  rw [put, dif_neg hDigest]

theorem addMember_written (s : Siblings) {depth : Nat} {digest : Digest}
    (hDepth : depth < Digest.width) (hDigest : digest ≠ .empty) :
    ∃ s', s.addMember (toString depth) (toJson digest).source = .ok s' ∧
      s'.stored = s.stored.insert depth digest := by
  obtain ⟨s', hSet, hStored⟩ := s.set_of_ne_empty hDepth hDigest
  refine ⟨s', ?_, hStored⟩
  have hToken : Source.asOptional Source.asToken (toJson digest).source = .ok (some digest) :=
    map_eq_ok_iff.mpr ⟨digest, ofJson_source digest, rfl⟩
  have hLevel : Decimal.toNatBelow? UInt64.size (toString depth) = some depth :=
    Decimal.toNatBelow?_toString (hDepth.trans (by decide))
  rw [addMember]
  refine bind_eq_ok_iff.mpr ⟨some digest, hToken, ?_⟩
  rw [hLevel]
  exact mapError_eq_ok_iff.mpr hSet

/-- Siblings that are written one by one are added one by one. -/
theorem addMembers_written (bindings : List (Nat × Digest)) (s : Siblings)
    (h : ∀ b ∈ bindings, b.1 < Digest.width ∧ b.2 ≠ .empty) :
    ∃ s', s.addMembers
        (memberSources (bindings.map fun (depth, digest) => (toString depth, toJson digest))) = .ok s' ∧
      s'.stored = bindings.foldl (fun m b => m.insert b.1 b.2) s.stored := by
  induction bindings generalizing s with
  | nil => exact ⟨s, rfl, rfl⟩
  | cons b bindings ih =>
    obtain ⟨hFirst, hRest⟩ := List.forall_mem_cons.mp h
    obtain ⟨next, hAdd, hStored⟩ := s.addMember_written hFirst.1 hFirst.2
    obtain ⟨last, hLast, hStored'⟩ := ih next hRest
    refine ⟨last, bind_eq_ok_iff.mpr ⟨next, hAdd, hLast⟩, ?_⟩
    rw [hStored', hStored, List.foldl_cons]

instance : LawfulForm Siblings where
  ofJson_source s := by
    obtain ⟨s', hRead, hStored⟩ := addMembers_written s.toList ∅ s.stored_level
    change addMembers ∅ (memberSources (s.toList.map _)) = _
    rw [hRead]
    obtain ⟨stored, _⟩ := s
    obtain ⟨stored', _⟩ := s'
    obtain rfl : stored' = stored := hStored.trans stored.ofList_toList
    rfl

end Siblings

instance : LawfulForm AuditPath where
  ofJson_source path :=
    (Fields.Reads.map _ (.cons (ofJson_source path.leafKey) (.field (ofJson_source path.siblings))
      (by simp))).decode

/-! ## Records -/

/-- An entry is read with the map that is read for its slots. -/
theorem Entry.decode_object {v : Value} {keys : SortedMap String String}
    (h : Source.asMap Source.asText v.source = .ok keys) (name : String) (timestamp : UInt64)
    (inRecovery : Bool) :
    Entry.fields.decode (Value.object [("Name", toJson name), ("Keys", v),
      ("Timestamp", toJson timestamp), ("InRecovery", toJson inRecovery)]).source =
      .ok ⟨name, keys, timestamp, inRecovery⟩ :=
  (Fields.Reads.map _ (.cons (ofJson_source name) (.cons h
    (.cons (ofJson_source timestamp) (.field (ofJson_source inRecovery))
      (by simp)) (by simp)) (by simp))).decode

instance : LawfulForm Entry where
  ofJson_source e := Entry.decode_object (ofJson_source e.keys) e.name e.timestamp e.inRecovery

instance : LawfulForm Root where
  ofJson_source r :=
    (Fields.Reads.map _ (.cons (ofJson_source r.rootHash) (.field (ofJson_source r.timestamp))
      (by simp))).decode

/-! ## Lookups -/

instance : LawfulForm SignedRoot where
  ofJson_source signed :=
    (Fields.Reads.map _ (.cons (ofJson_source signed.root) (.field (ofJson_source signed.signature))
      (by simp))).decode

instance : LawfulForm SignedPath where
  ofJson_source signed :=
    (Fields.Reads.map _ (.cons (ofJson_source signed.path) (.field (ofJson_source signed.signedRoot))
      (by simp))).decode

instance : LawfulForm Lookup where
  ofJson_source lookup :=
    (Fields.Reads.map _ (.cons (asOptional_source (fun _ => ⟨_, rfl⟩) lookup.entry)
      (.field (ofJson_source lookup.proofs)) (by simp))).decode

/-- Every record, path and lookup is read back from its text, so that a lookup gets the verdict of the
one that was written. -/
theorem Lookup.read_back [HashFunction] [SignatureScheme] :
    (∀ e : Entry, ofString Entry (toJson e).compact = .ok e) ∧
    (∀ r : Root, ofString Root (toJson r).compact = .ok r) ∧
    (∀ path : AuditPath, ofString AuditPath (toJson path).compact = .ok path) ∧
    (∀ signed : SignedRoot, ofString SignedRoot (toJson signed).compact = .ok signed) ∧
    (∀ signed : SignedPath, ofString SignedPath (toJson signed).compact = .ok signed) ∧
    ∀ lookup : Lookup, ofString Lookup (toJson lookup).compact = .ok lookup ∧
      ∀ (name : String) (trust : Trust) (now : UInt64),
        (·.verify name trust now) <$> ofString Lookup (toJson lookup).compact =
          .ok (lookup.verify name trust now) := by
  refine ⟨ofString_compact, ofString_compact, ofString_compact, ofString_compact, ofString_compact, ?_⟩
  intro lookup
  refine ⟨ofString_compact lookup, fun name trust now => ?_⟩
  rw [ofString_compact lookup]
  rfl

end SignedDirectory
