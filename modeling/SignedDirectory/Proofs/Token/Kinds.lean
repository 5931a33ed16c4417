import SignedDirectory.Ed25519.Signing
import SignedDirectory.Proofs.Token.Refusal
import SignedDirectory.Vectors

/-!
# Kinds of tokens

Seven kinds of values have tokens, all but digests in a wrapper of their own. The tag of a wrapper can
be read off the text whatever the tags are, because no symbol is an opening parenthesis, so no text is a
token of two kinds; and each kind reads exactly the tokens that it writes (`TokenKind.tokens_canonical`).
-/

namespace SignedDirectory

/-! ## Tags -/

namespace Token

theorem inAlphabet_encode (bytes : Bytes) : InAlphabet (encode bytes) := by
  have hRead := (decode_eq_ok_iff (encode bytes) bytes).mpr rfl
  rcases inAlphabet_or_foreign (encode bytes) with h | ⟨before, ch, after, hText, hBefore, hForeign⟩
  · exact h
  · rw [hText, decode_foreign hBefore hForeign] at hRead
    cases hRead

theorem paren_notMem_encodeChars (bytes : Bytes) : '(' ∉ encodeChars bytes := by
  intro hMem
  have hAlphabet := inAlphabet_encode bytes '(' (by rwa [encode, String.toList_ofList])
  revert hAlphabet
  decide

/-- A list is split at the last place of an element in one way. -/
theorem eq_of_split_last {a b c d : List Char} {ch : Char} (hb : ch ∉ b) (hd : ch ∉ d)
    (h : a ++ ch :: b = c ++ ch :: d) : a = c ∧ b = d := by
  rcases List.append_eq_append_iff.mp h with ⟨m, rfl, hm⟩ | ⟨m, rfl, hm⟩
  · cases m with
    | nil => exact ⟨(List.append_nil a).symm, (List.cons.inj hm).2⟩
    | cons x m =>
      obtain ⟨-, rfl⟩ := List.cons.inj hm
      exact absurd (List.mem_append_right m List.mem_cons_self) hb
  · cases m with
    | nil => exact ⟨List.append_nil c, (List.cons.inj hm).2.symm⟩
    | cons x m =>
      obtain ⟨-, rfl⟩ := List.cons.inj hm
      exact absurd (List.mem_append_right m List.mem_cons_self) hd

theorem wrap_inj {bytes bytes' : Bytes} {tag tag' : String} (h : wrap bytes tag = wrap bytes' tag') :
    tag = tag' ∧ bytes = bytes' := by
  have hChars := congrArg String.toList h
  rw [toList_wrap, toList_wrap] at hChars
  obtain ⟨hTag, hInside⟩ := eq_of_split_last (by simp [paren_notMem_encodeChars])
    (by simp [paren_notMem_encodeChars]) hChars
  exact ⟨String.toList_inj.mp hTag, encodeChars_injective (List.append_cancel_right hInside)⟩

theorem encode_ne_wrap (bytes bytes' : Bytes) (tag : String) : encode bytes ≠ wrap bytes' tag := by
  intro h
  apply paren_notMem_encodeChars bytes
  have hChars := congrArg String.toList h
  rw [encode, String.toList_ofList, toList_wrap] at hChars
  rw [hChars]
  exact List.mem_append_right _ List.mem_cons_self

/-- The token of a byte string, in a wrapper if there is a tag for one. -/
def write : Option String → Bytes → String
  | none, bytes => encode bytes
  | some tag, bytes => wrap bytes tag

theorem write_injective {tag? tag?' : Option String} {bytes bytes' : Bytes}
    (h : write tag? bytes = write tag?' bytes') : tag? = tag?' ∧ bytes = bytes' := by
  cases tag? with
  | none =>
    cases tag?' with
    | none => exact ⟨rfl, encodeChars_injective (String.ofList_inj.mp h)⟩
    | some tag' => exact absurd h (encode_ne_wrap bytes bytes' tag')
  | some tag =>
    cases tag?' with
    | none => exact absurd h.symm (encode_ne_wrap bytes' bytes tag)
    | some tag' =>
      obtain ⟨rfl, hBytes⟩ := wrap_inj h
      exact ⟨rfl, hBytes⟩

/-- A kind of value that is just so many bytes. -/
theorem map_unwrapFixed_eq_ok_iff {α : Type} {size : Nat} {make : Vector UInt8 size → α}
    {bytes : α → Vector UInt8 size} (hBytes : ∀ a fixed, make fixed = a ↔ fixed = bytes a)
    (text tag : String) (a : α) :
    make <$> unwrapFixed size text tag = .ok a ↔ text = wrap (bytes a).toList tag := by
  simp only [map_eq_ok_iff, unwrapFixed_eq_ok_iff, hBytes]
  constructor
  · rintro ⟨_, hText, rfl⟩
    exact hText
  · exact fun hText => ⟨bytes a, hText, rfl⟩

end Token

/-! ## Single kinds -/

namespace Digest

theorem ofBytes_eq_ok_iff {bytes : Bytes} {d : Digest} : ofBytes bytes = .ok d ↔ bytes = d.toBytes := by
  rw [ofBytes, toBytes, ← Token.toVector?_eq_some_iff]
  constructor
  · intro h
    split at h
    · rename_i fixed hVector
      cases h
      exact hVector
    · cases h
  · intro h
    rw [h]

theorem ofToken_eq_ok_iff (text : String) (d : Digest) : ofToken text = .ok d ↔ text = d.toToken := by
  simp only [ofToken, bind_eq_ok_iff, Token.decode_eq_ok_iff, ofBytes_eq_ok_iff]
  constructor
  · rintro ⟨_, hText, rfl⟩
    exact hText
  · exact fun hText => ⟨d.toBytes, hText, rfl⟩

end Digest

theorem Bytes.toList_halves (bytes : Vector UInt8 64) :
    (Bytes.halves bytes).1.toList = bytes.toList.take 32 ∧
      (Bytes.halves bytes).2.toList = bytes.toList.drop 32 := by
  rw [halves, Vector.toList_cast, Vector.toList_cast, Vector.toList_take, Vector.toList_drop]
  exact ⟨rfl, rfl⟩

theorem Bytes.halves_eq_iff {bytes : Vector UInt8 64} {a b : Vector UInt8 32} :
    Bytes.halves bytes = (a, b) ↔ bytes.toList = a.toList ++ b.toList := by
  obtain ⟨hFirst, hSecond⟩ := toList_halves bytes
  rw [Prod.ext_iff, ← Vector.toList_inj, ← Vector.toList_inj, hFirst, hSecond]
  constructor
  · rintro ⟨ha, hb⟩
    rw [← ha, ← hb, List.take_append_drop]
  · intro h
    rw [h]
    exact ⟨List.take_left' Vector.length_toList, List.drop_left' Vector.length_toList⟩

namespace PrivateKey

variable [SignatureScheme]

theorem ofHalves_eq_ok_iff {seed pub : Vector UInt8 32} {key : PrivateKey} :
    ofHalves seed pub = .ok key ↔
      SignatureScheme.isKey pub = true ∧ seed = key.seed ∧ pub = key.publicKey.bytes := by
  rw [ofHalves]
  constructor
  · intro h
    split at h
    · cases h
    · rename_i hKey
      split at h
      · cases h
      · rename_i hMatch
        cases h
        exact ⟨by simpa using hKey, rfl, (not_not.mp hMatch).symm⟩
  · rintro ⟨hKey, rfl, rfl⟩
    rw [hKey]
    exact if_neg (not_not_intro rfl)

theorem ofToken_eq_ok_iff (text : String) (key : PrivateKey) : ofToken text = .ok key ↔
    SignatureScheme.isKey key.publicKey.bytes = true ∧ text = key.toToken := by
  constructor
  · intro h
    obtain ⟨bytes, hUnwrap, h⟩ := bind_eq_ok_iff.mp h
    rw [Token.unwrapFixed_eq_ok_iff] at hUnwrap
    obtain ⟨hKey, hSeed, hPub⟩ := ofHalves_eq_ok_iff.mp h
    have hBytes := Bytes.halves_eq_iff.mp (Prod.ext_iff.mpr ⟨hSeed, hPub⟩)
    rw [hPub] at hKey
    exact ⟨hKey, by rw [hUnwrap, hBytes, toToken]⟩
  · rintro ⟨hKey, rfl⟩
    -- The two halves as they are written.
    let bytes := key.seed ++ key.publicKey.bytes
    have hBytes : bytes.toList = key.seed.toList ++ key.publicKey.bytes.toList :=
      Vector.toList_append
    refine bind_eq_ok_iff.mpr ⟨bytes, ?_, ?_⟩
    · rw [Token.unwrapFixed_eq_ok_iff, toToken, hBytes]
    · change ofHalves (Bytes.halves bytes).1 (Bytes.halves bytes).2 = _
      rw [Bytes.halves_eq_iff.mpr hBytes, ofHalves_eq_ok_iff]
      exact ⟨hKey, rfl, rfl⟩

end PrivateKey

namespace SealedBox

theorem ofBytes_eq_ok_iff {bytes : Bytes} {box : SealedBox} :
    ofBytes bytes = .ok box ↔ bytes = box.bytes := by
  rw [ofBytes]
  constructor
  · intro h
    split at h
    · cases h
      rfl
    · cases h
  · rintro rfl
    exact dif_pos box.holds_nonce

theorem ofToken_eq_ok_iff (text : String) (box : SealedBox) :
    ofToken text = .ok box ↔ text = box.toToken := by
  simp only [ofToken, bind_eq_ok_iff, Token.unwrap_eq_ok_iff, ofBytes_eq_ok_iff]
  constructor
  · rintro ⟨_, hText, rfl⟩
    exact hText
  · exact fun hText => ⟨box.bytes, hText, rfl⟩

end SealedBox

theorem Signature.ofToken_eq_ok_iff (text : String) (signature : Signature) :
    ofToken text = .ok signature ↔ text = signature.toToken :=
  Token.map_unwrapFixed_eq_ok_iff (fun ⟨_⟩ _ => mk.injEq _ _ ▸ Iff.rfl) text Tag.signature signature

theorem BoxPublicKey.ofToken_eq_ok_iff (text : String) (key : BoxPublicKey) :
    ofToken text = .ok key ↔ text = key.toToken :=
  Token.map_unwrapFixed_eq_ok_iff (fun ⟨_⟩ _ => mk.injEq _ _ ▸ Iff.rfl) text Tag.boxPublicKey key

theorem BoxPrivateKey.ofToken_eq_ok_iff (text : String) (key : BoxPrivateKey) :
    ofToken text = .ok key ↔ text = key.toToken :=
  Token.map_unwrapFixed_eq_ok_iff (fun ⟨_⟩ _ => mk.injEq _ _ ▸ Iff.rfl) text Tag.boxPrivateKey key

/-! ## All kinds -/

/-- The kinds of values that have tokens. -/
inductive TokenKind where
  | digest
  | publicKey
  | privateKey
  | signature
  | boxPublicKey
  | boxPrivateKey
  | sealedBox
  deriving DecidableEq

namespace TokenKind

abbrev Value : TokenKind → Type
  | .digest => Digest
  | .publicKey => PublicKey
  | .privateKey => PrivateKey
  | .signature => Signature
  | .boxPublicKey => BoxPublicKey
  | .boxPrivateKey => BoxPrivateKey
  | .sealedBox => SealedBox

/-- The tag of the wrapper; digests have none. -/
def tag? : TokenKind → Option String
  | .digest => none
  | .publicKey => some Tag.publicKey
  | .privateKey => some Tag.privateKey
  | .signature => some Tag.signature
  | .boxPublicKey => some Tag.boxPublicKey
  | .boxPrivateKey => some Tag.boxPrivateKey
  | .sealedBox => some Tag.sealedBox

def all : List TokenKind :=
  [.digest, .publicKey, .privateKey, .signature, .boxPublicKey, .boxPrivateKey, .sealedBox]

theorem mem_all (k : TokenKind) : k ∈ all := by
  cases k <;> decide

theorem tag?_injective {k k' : TokenKind} (h : k.tag? = k'.tag?) : k = k' := by
  have hAll : ∀ k ∈ all, ∀ k' ∈ all, k.tag? = k'.tag? → k = k' := by decide
  exact hAll k (mem_all k) k' (mem_all k') h

section

variable [SignatureScheme]

instance form : (k : TokenKind) → TokenForm k.Value
  | .digest => inferInstanceAs (TokenForm Digest)
  | .publicKey => inferInstanceAs (TokenForm PublicKey)
  | .privateKey => inferInstanceAs (TokenForm PrivateKey)
  | .signature => inferInstanceAs (TokenForm Signature)
  | .boxPublicKey => inferInstanceAs (TokenForm BoxPublicKey)
  | .boxPrivateKey => inferInstanceAs (TokenForm BoxPrivateKey)
  | .sealedBox => inferInstanceAs (TokenForm SealedBox)

def write (k : TokenKind) (x : k.Value) : String := toToken x

def read (k : TokenKind) (text : String) : Except FormatError k.Value := TokenForm.ofToken text

/-- What the scheme has to take for a key in a value: a public key itself, which is never made from other
bytes, and the public key that is derived from a private one. -/
def Genuine : (k : TokenKind) → k.Value → Prop
  | .publicKey, key => SignatureScheme.isKey key.bytes = true
  | .privateKey, key => SignatureScheme.isKey key.publicKey.bytes = true
  | _, _ => True

theorem read_eq_ok_iff (k : TokenKind) (text : String) (x : k.Value) :
    k.read text = .ok x ↔ k.Genuine x ∧ text = k.write x := by
  cases k with
  | digest => exact (Digest.ofToken_eq_ok_iff text x).trans (and_iff_right trivial).symm
  | publicKey => exact PublicKey.ofToken_eq_ok_iff text x
  | privateKey => exact PrivateKey.ofToken_eq_ok_iff text x
  | signature => exact (Signature.ofToken_eq_ok_iff text x).trans (and_iff_right trivial).symm
  | boxPublicKey => exact (BoxPublicKey.ofToken_eq_ok_iff text x).trans (and_iff_right trivial).symm
  | boxPrivateKey => exact (BoxPrivateKey.ofToken_eq_ok_iff text x).trans (and_iff_right trivial).symm
  | sealedBox => exact (SealedBox.ofToken_eq_ok_iff text x).trans (and_iff_right trivial).symm

theorem exists_write_eq (k : TokenKind) (x : k.Value) :
    ∃ bytes, k.write x = Token.write k.tag? bytes := by
  cases k with
  | digest => exact ⟨x.toBytes, rfl⟩
  | publicKey => exact ⟨x.bytes.toList, rfl⟩
  | privateKey => exact ⟨x.seed.toList ++ x.publicKey.bytes.toList, rfl⟩
  | signature => exact ⟨x.bytes.toList, rfl⟩
  | boxPublicKey => exact ⟨x.bytes.toList, rfl⟩
  | boxPrivateKey => exact ⟨x.bytes.toList, rfl⟩
  | sealedBox => exact ⟨x.bytes, rfl⟩

theorem eq_of_write_eq {k k' : TokenKind} {x : k.Value} {x' : k'.Value}
    (h : k.write x = k'.write x') : k = k' := by
  obtain ⟨bytes, hWrite⟩ := k.exists_write_eq x
  obtain ⟨bytes', hWrite'⟩ := k'.exists_write_eq x'
  rw [hWrite, hWrite'] at h
  exact tag?_injective (Token.write_injective h).1

/-- A text unwraps under one tag to one byte string at most, for any tags. Every kind reads what it writes
and nothing else, and no text is read as two kinds. -/
theorem tokens_canonical :
    (∀ text tag bytes, Token.unwrap text tag = .ok bytes ↔ text = Token.wrap bytes tag) ∧
      (∀ text tag tag' bytes bytes', Token.unwrap text tag = .ok bytes →
        Token.unwrap text tag' = .ok bytes' → tag = tag' ∧ bytes = bytes') ∧
      (∀ (k : TokenKind) (text : String) (x : k.Value),
        k.read text = .ok x ↔ k.Genuine x ∧ text = k.write x) ∧
      ∀ (k k' : TokenKind) (text : String) (x : k.Value) (x' : k'.Value),
        k.read text = .ok x → k'.read text = .ok x' → k = k' := by
  refine ⟨Token.unwrap_eq_ok_iff, ?_, read_eq_ok_iff, ?_⟩
  · intro text tag tag' bytes bytes' h h'
    rw [Token.unwrap_eq_ok_iff] at h h'
    exact Token.wrap_inj (h.symm.trans h')
  · intro k k' text x x' h h'
    rw [read_eq_ok_iff] at h h'
    exact eq_of_write_eq (h.2.symm.trans h'.2)

end

theorem read_write_vectorsKey : Genuine .privateKey Vectors.key ∧
    read .privateKey (write .privateKey Vectors.key) = .ok Vectors.key := by
  have hGenuine : Genuine .privateKey Vectors.key := by
    change SignatureScheme.isKey Vectors.key.publicKey.bytes = true
    decide +kernel
  obtain ⟨-, -, hRead, -⟩ := tokens_canonical
  exact ⟨hGenuine, (hRead .privateKey _ Vectors.key).mpr ⟨hGenuine, rfl⟩⟩

end TokenKind

end SignedDirectory
