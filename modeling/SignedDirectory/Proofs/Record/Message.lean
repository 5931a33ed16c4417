import Mathlib.Algebra.Group.Nat.Defs
import Mathlib.Data.List.Basic
import SignedDirectory.Sha512
import SignedDirectory.Vectors

/-!
# Signed messages determine their records

A record is written so that its bytes tell it from every other record of its kind, and what is signed
is the digest of those bytes followed by the tag of the kind. So two records with the same message are
of one kind, and unless they are equal the hash function collides on their bytes. Fields are read off
one after another: each of them can be told apart whatever is written behind it (`Framed`).
-/

namespace SignedDirectory

namespace Encoding

/-! ## Fields -/

/-- The values of a field that satisfy `fits` can be told apart whatever is written behind them, and so
can what is written behind them. -/
def Framed {α : Type} (fits : α → Prop) (write : α → Bytes) : Prop :=
  ∀ ⦃a b : α⦄ ⦃rest rest' : Bytes⦄, fits a → fits b → write a ++ rest = write b ++ rest' →
    a = b ∧ rest = rest'

section

variable {α β : Type} {fits : α → Prop} {write : α → Bytes}

/-- A field of fixed length. -/
theorem Framed.of_length {n : Nat} (hLength : ∀ a, (write a).length = n)
    (hInjective : ∀ a b, write a = write b → a = b) : Framed fits write := by
  intro a b rest rest' _ _ h
  obtain ⟨hWritten, hRest⟩ := List.append_inj h ((hLength a).trans (hLength b).symm)
  exact ⟨hInjective a b hWritten, hRest⟩

theorem Framed.prod {fits' : β → Prop} {write' : β → Bytes} (h : Framed fits write)
    (h' : Framed fits' write') :
    Framed (fun p : α × β => fits p.1 ∧ fits' p.2) fun p => write p.1 ++ write' p.2 := by
  rintro ⟨a, a'⟩ ⟨b, b'⟩ rest rest' ⟨ha, ha'⟩ ⟨hb, hb'⟩ hEq
  rw [List.append_assoc, List.append_assoc] at hEq
  obtain ⟨rfl, hBehind⟩ := h ha hb hEq
  obtain ⟨rfl, hRest⟩ := h' ha' hb' hBehind
  exact ⟨rfl, hRest⟩

/-- Fields of one kind, if their number is known. -/
theorem Framed.flatMap (h : Framed fits write) {as bs : List α} {rest rest' : Bytes}
    (hLength : as.length = bs.length) (has : ∀ a ∈ as, fits a) (hbs : ∀ b ∈ bs, fits b)
    (hEq : as.flatMap write ++ rest = bs.flatMap write ++ rest') : as = bs ∧ rest = rest' := by
  induction as generalizing bs with
  | nil =>
    obtain rfl : bs = [] := List.length_eq_zero_iff.mp hLength.symm
    exact ⟨rfl, hEq⟩
  | cons a as ih =>
    obtain ⟨b, bs, rfl⟩ := List.exists_of_length_succ bs hLength.symm
    rw [List.flatMap_cons, List.flatMap_cons, List.append_assoc, List.append_assoc] at hEq
    obtain ⟨rfl, hBehind⟩ := h (has a List.mem_cons_self) (hbs b List.mem_cons_self) hEq
    obtain ⟨rfl, hRest⟩ := ih (Nat.succ.inj hLength) (fun a ha => has a (List.mem_cons_of_mem _ ha))
      (fun b hb => hbs b (List.mem_cons_of_mem _ hb)) hBehind
    exact ⟨rfl, hRest⟩

end

theorem ofUInt64_injective {m n : UInt64} (h : Bytes.ofUInt64 m = Bytes.ofUInt64 n) : m = n := by
  have hm := m.toNat_lt
  have hn := n.toNat_lt
  simp only [Bytes.ofUInt64, List.cons.injEq, ← UInt8.toNat_inj, UInt64.toNat_toUInt8,
    UInt64.toNat_shiftRight, Nat.shiftRight_eq_div_pow, UInt64.reduceToNat, Nat.reduceMod,
    Nat.reducePow] at h
  apply UInt64.toNat_inj.mp
  omega

theorem framed_ofUInt64 : Framed (fun _ => True) Bytes.ofUInt64 :=
  .of_length (n := 8) (fun _ => rfl) fun _ _ => ofUInt64_injective

/-- A count that fits into eight bytes is read off them. -/
theorem toUInt64_injective {m n : Nat} (hm : m < 2 ^ 64) (hn : n < 2 ^ 64)
    (h : m.toUInt64 = n.toUInt64) : m = n := by
  calc
    m = m.toUInt64.toNat := (UInt64.toNat_ofNat_of_lt' hm).symm
    _ = n.toUInt64.toNat := congrArg UInt64.toNat h
    _ = n := UInt64.toNat_ofNat_of_lt' hn

theorem ofBool_injective {b b' : Bool} (h : ofBool b = ofBool b') : b = b' := by
  revert b b'
  decide

theorem ofString_injective {s t : String} (h : Bytes.ofString s = Bytes.ofString t) : s = t := by
  apply String.toByteArray_inj.mp
  apply ByteArray.ext
  exact Array.toList_inj.mp h

theorem framed_ofText : Framed (fun s => s.utf8ByteSize < 2 ^ 64) ofText := by
  intro s t rest rest' hs ht h
  rw [ofText, ofText, List.append_assoc, List.append_assoc] at h
  obtain ⟨hSize, hText⟩ := framed_ofUInt64 trivial trivial h
  have hLength : (Bytes.ofString s).length = (Bytes.ofString t).length :=
    toUInt64_injective hs ht hSize
  obtain ⟨hWritten, hRest⟩ := List.append_inj hText hLength
  exact ⟨ofString_injective hWritten, hRest⟩

end Encoding

/-! ## Records -/

theorem Digest.toBytes_injective {a b : Digest} (h : a.toBytes = b.toBytes) : a = b := by
  cases a
  cases b
  cases Vector.toList_inj.mp h
  rfl

theorem Digest.framed_toBytes : Encoding.Framed (fun _ => True) Digest.toBytes :=
  .of_length (n := 64) (fun _ => Vector.length_toList) fun _ _ => Digest.toBytes_injective

/-- The lengths and the count that an entry writes fit into the eight bytes of each. -/
structure Entry.Sized (e : Entry) : Prop where
  name : e.name.utf8ByteSize < 2 ^ 64
  count : e.keys.size < 2 ^ 64
  slots : ∀ slot ∈ e.keys.toList, slot.1.utf8ByteSize < 2 ^ 64 ∧ slot.2.utf8ByteSize < 2 ^ 64

open Encoding

theorem Entry.encode_injective {e e' : Entry} (h : e.Sized) (h' : e'.Sized)
    (hEq : e.encode = e'.encode) : e = e' := by
  rw [Entry.encode, Entry.encode] at hEq
  simp only [List.append_assoc] at hEq
  obtain ⟨hName, hEq⟩ := framed_ofText h.name h'.name hEq
  obtain ⟨hCount, hEq⟩ := framed_ofUInt64 trivial trivial hEq
  have hLength : e.keys.toList.length = e'.keys.toList.length :=
    toUInt64_injective h.count h'.count hCount
  obtain ⟨hSlots, hEq⟩ := (framed_ofText.prod framed_ofText).flatMap hLength h.slots h'.slots hEq
  obtain ⟨hTimestamp, hEq⟩ := framed_ofUInt64 trivial trivial hEq
  have hFlag : e.inRecovery = e'.inRecovery := ofBool_injective hEq
  have hKeys := SortedMap.ext hSlots
  cases e
  cases e'
  cases hName
  cases hKeys
  cases hTimestamp
  cases hFlag
  rfl

theorem Root.encode_injective {r r' : Root} (hEq : r.encode = r'.encode) : r = r' := by
  obtain ⟨hRoot, hTimestamp⟩ := Digest.framed_toBytes trivial trivial hEq
  cases r
  cases r'
  cases hRoot
  cases ofUInt64_injective hTimestamp
  rfl

namespace Record

/-- Two records are both entries or both roots. -/
inductive SameKind : Record → Record → Prop
  | entry (e e' : Entry) : SameKind (.entry e) (.entry e')
  | root (r r' : Root) : SameKind (.root r) (.root r')

def Sized : Record → Prop
  | .entry e => e.Sized
  | .root _ => True

theorem tag_entry_ne_tag_root (e : Entry) (r : Root) : (entry e).tag ≠ (root r).tag := by
  simp [tag]

theorem tag_eq_iff {r r' : Record} : r.tag = r'.tag ↔ SameKind r r' := by
  constructor
  · intro h
    cases r with
    | entry e =>
      cases r' with
      | entry e' => exact .entry e e'
      | root q' => exact absurd h (tag_entry_ne_tag_root e q')
    | root q =>
      cases r' with
      | entry e' => exact absurd h.symm (tag_entry_ne_tag_root e' q)
      | root q' => exact .root q q'
  · rintro (_ | _)
    · rfl
    · rfl

theorem encode_eq_iff {r r' : Record} (hKind : SameKind r r') (h : r.Sized) (h' : r'.Sized) :
    r.encode = r'.encode ↔ r = r' := by
  constructor
  · intro hEq
    cases hKind with
    | entry e e' => exact congrArg Record.entry (Entry.encode_injective h h' hEq)
    | root q q' => exact congrArg Record.root (Root.encode_injective hEq)
  · rintro rfl
    rfl

variable [HashFunction]

theorem message_eq_iff {r r' : Record} :
    r.message = r'.message ↔ SameKind r r' ∧ r.digest = r'.digest := by
  rw [← tag_eq_iff]
  constructor
  · intro h
    obtain ⟨hDigest, hTag⟩ := Digest.framed_toBytes trivial trivial h
    exact ⟨ofString_injective hTag, hDigest⟩
  · rintro ⟨hTag, hDigest⟩
    rw [message, message, hTag, hDigest]

/-- Records with the same message are of one kind and have the same digest. Records of one kind that are
written alike are equal, so the hash function collides on different records with the same message. -/
theorem message_determines (r r' : Record) :
    (r.message = r'.message ↔ SameKind r r' ∧ r.digest = r'.digest) ∧
      (r.Sized → r'.Sized →
        (SameKind r r' → (r.encode = r'.encode ↔ r = r')) ∧
        (r ≠ r' → r.message = r'.message →
          r.encode ≠ r'.encode ∧ Digest.ofData r.encode = Digest.ofData r'.encode)) := by
  refine ⟨message_eq_iff, fun h h' => ⟨fun hKind => encode_eq_iff hKind h h', ?_⟩⟩
  intro hNe hMessage
  obtain ⟨hKind, hDigest⟩ := message_eq_iff.mp hMessage
  exact ⟨fun hEq => hNe ((encode_eq_iff hKind h h').mp hEq), hDigest⟩

/-- Moving a letter from the name into the slot behind it is noticed. -/
theorem encode_ne_of_moved_letter :
    (entry (Vectors.entry "ab" "c" "d")).Sized ∧ (entry (Vectors.entry "a" "bc" "d")).Sized ∧
      (entry (Vectors.entry "ab" "c" "d")).encode ≠ (entry (Vectors.entry "a" "bc" "d")).encode := by
  have h : (entry (Vectors.entry "ab" "c" "d")).Sized := ⟨by decide, by decide, by decide⟩
  have h' : (entry (Vectors.entry "a" "bc" "d")).Sized := ⟨by decide, by decide, by decide⟩
  obtain ⟨hIff, -⟩ := (message_determines _ _).2 h h'
  exact ⟨h, h', fun hEq => absurd ((hIff (.entry _ _)).mp hEq) (by decide)⟩

end Record

end SignedDirectory
