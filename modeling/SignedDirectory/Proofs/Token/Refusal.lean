import SignedDirectory.Proofs.Token.Buffer

/-!
# Which texts are refused as tokens

A text that is not the token of a byte string is refused, and `Refused` says with which fault: its first
character outside the alphabet comes before a length that no token has, and that before bits that are
left over. `decode_classifies` says that this is what decoding does, for every text.
-/

namespace SignedDirectory.Token

def InAlphabet (text : String) : Prop := ∀ ch ∈ text.toList, ch ∈ alphabet

/-- A text is refused as a token for a fault. -/
inductive Refused (text : String) : FormatError → Prop
  | foreign {before : String} {ch : Char} {after : String} :
      text = before ++ String.singleton ch ++ after → InAlphabet before → ch ∉ alphabet →
      Refused text (.invalidCharacter ch before.utf8ByteSize)
  | length : InAlphabet text → ImpossibleLength text.length → Refused text (.invalidLength text.length)
  | leftover : InAlphabet text → ¬ ImpossibleLength text.length → (∀ bytes, text ≠ encode bytes) →
      Refused text .nonCanonical

/-! ## Foreign characters -/

theorem value?_eq_none_iff {ch : Char} : value? ch = none ↔ ch ∉ alphabet := List.idxOf?_eq_none_iff

theorem exists_readSymbols {chars : List Char} (h : ∀ ch ∈ chars, ch ∈ alphabet) (position : Nat) :
    ∃ bs, readSymbols position chars = .ok bs := by
  induction chars generalizing position with
  | nil => exact ⟨[], rfl⟩
  | cons ch rest ih =>
    obtain ⟨hFirst, hRest⟩ := List.forall_mem_cons.mp h
    cases hValue : value? ch with
    | none => exact absurd hFirst (value?_eq_none_iff.mp hValue)
    | some n =>
      obtain ⟨bs, hRead⟩ := ih hRest (position + ch.utf8Size)
      refine ⟨bits 5 n ++ bs, ?_⟩
      rw [readSymbols, hValue, hRead]
      rfl

theorem readSymbols_foreign {before after : List Char} {ch : Char} (h : ∀ c ∈ before, c ∈ alphabet)
    (hForeign : ch ∉ alphabet) (position : Nat) :
    readSymbols position (before ++ ch :: after) =
      .error (.invalidCharacter ch (position + (String.ofList before).utf8ByteSize)) := by
  induction before generalizing position with
  | nil =>
    rw [List.nil_append, readSymbols, value?_eq_none_iff.mpr hForeign]
    rfl
  | cons c before ih =>
    obtain ⟨hFirst, hBefore⟩ := List.forall_mem_cons.mp h
    rw [List.cons_append, readSymbols]
    cases hValue : value? c with
    | none => exact absurd hFirst (value?_eq_none_iff.mp hValue)
    | some n =>
      rw [ih hBefore, String.ofList_cons, String.utf8ByteSize_append, String.utf8ByteSize_singleton,
        Nat.add_assoc]
      rfl

/-! ## Lengths -/

theorem length_symbols (bs : List Bool) : (symbols bs).length = (bs.length + 4) / 5 := by
  fun_induction symbols bs with
  | case1 => rfl
  | case2 a b c d e rest ih =>
    simp only [List.length_cons, ih]
    omega
  | case3 last hNil hMore =>
    rcases last with _ | ⟨a, _ | ⟨b, _ | ⟨c, _ | ⟨d, _ | ⟨e, rest⟩⟩⟩⟩⟩
    · exact absurd rfl hNil
    iterate 4 simp
    · exact absurd rfl (hMore a b c d e rest)

/-- A token has a symbol for every five bits, the last of which may be filled up. -/
theorem length_encode (bytes : Bytes) : (encode bytes).length = (8 * bytes.length + 4) / 5 := by
  have hSymbols : (encodeChars bytes).length = ((bitString bytes).length + 4) / 5 :=
    length_symbols (bitString bytes)
  rw [encode, String.length_ofList, hSymbols, length_bitString]

/-! ## All texts -/

theorem decode_foreign {before after : String} {ch : Char} (h : InAlphabet before)
    (hForeign : ch ∉ alphabet) : decode (before ++ String.singleton ch ++ after) =
      .error (.invalidCharacter ch before.utf8ByteSize) := by
  have hRead : readSymbols 0 (before.toList ++ ch :: after.toList) = _ :=
    readSymbols_foreign h hForeign 0
  rw [String.ofList_toList, Nat.zero_add] at hRead
  rw [decode, decodeChars, String.toList_append, String.toList_append, String.toList_singleton,
    List.append_assoc, List.singleton_append, hRead]
  rfl

theorem decode_inAlphabet {text : String} (h : InAlphabet text) :
    (ImpossibleLength text.length → decode text = .error (.invalidLength text.length)) ∧
      (¬ ImpossibleLength text.length →
        decode text = .error .nonCanonical ∨ ∃ bytes, decode text = .ok bytes) := by
  obtain ⟨bs, hRead⟩ := exists_readSymbols h 0
  have hLength := (symbols_of_readSymbols hRead).2
  have hLeft := length_leftover bs
  rw [String.length_toList] at hLength
  have hImpossible : ImpossibleLength text.length ↔ 5 ≤ (octets bs).2.length := by
    rw [hLeft, hLength, impossibleLength_iff]
  rw [hImpossible, decode, decodeChars_of_read hRead, String.length_toList]
  constructor
  · exact fun hMany => if_pos hMany
  · intro hFew
    rw [if_neg hFew]
    split
    · exact .inl rfl
    · exact .inr ⟨_, rfl⟩

theorem inAlphabet_or_foreign (text : String) : InAlphabet text ∨ ∃ before ch after,
    text = before ++ String.singleton ch ++ after ∧ InAlphabet before ∧ ch ∉ alphabet := by
  cases hFind : text.toList.find? (· ∉ alphabet) with
  | none =>
    left
    intro ch hMem
    simpa using List.find?_eq_none.mp hFind ch hMem
  | some ch =>
    right
    obtain ⟨hForeign, before, after, hText, hBefore⟩ := List.find?_eq_some_iff_append.mp hFind
    refine ⟨String.ofList before, ch, String.ofList after, ?_, ?_, by simpa using hForeign⟩
    · rw [← String.toList_inj, hText]
      simp
    · intro c hMem
      rw [String.toList_ofList] at hMem
      simpa using hBefore c hMem

theorem decode_eq_ok_iff (text : String) (bytes : Bytes) :
    decode text = .ok bytes ↔ text = encode bytes := by
  rw [decode, decodeChars_eq_ok_iff, encode, ← String.toList_inj, String.toList_ofList]

/-- Whatever is refused is refused for the fault that comes first. -/
theorem decode_of_refused {text : String} {fault : FormatError} (h : Refused text fault) :
    decode text = .error fault := by
  cases h with
  | foreign hText hBefore hForeign =>
    rw [hText]
    exact decode_foreign hBefore hForeign
  | length hAlphabet hImpossible => exact (decode_inAlphabet hAlphabet).1 hImpossible
  | leftover hAlphabet hImpossible hNoToken =>
    rcases (decode_inAlphabet hAlphabet).2 hImpossible with hFault | ⟨bytes, hRead⟩
    · exact hFault
    · exact absurd ((decode_eq_ok_iff text bytes).mp hRead) (hNoToken bytes)

theorem refused_or_token (text : String) :
    (∃ fault, Refused text fault) ∨ ∃ bytes, text = encode bytes := by
  rcases inAlphabet_or_foreign text with hAlphabet | ⟨before, ch, after, hText, hBefore, hForeign⟩
  · by_cases hToken : ∃ bytes, text = encode bytes
    · exact .inr hToken
    · left
      by_cases hImpossible : ImpossibleLength text.length
      · exact ⟨_, .length hAlphabet hImpossible⟩
      · exact ⟨_, .leftover hAlphabet hImpossible (not_exists.mp hToken)⟩
  · exact .inl ⟨_, .foreign hText hBefore hForeign⟩

/-- A text is read as a byte string exactly if it is the token of that byte string, which has a symbol for
every five bits begun, and refused for a fault exactly if that is its first fault. Writing and reading
through a buffer of sixteen bits comes to the same. -/
theorem decode_classifies (text : String) (bytes : Bytes) (fault : FormatError) :
    (decode text = .ok bytes ↔ text = encode bytes) ∧
      (encode bytes).length = (8 * bytes.length + 4) / 5 ∧
      (decode text = .error fault ↔ Refused text fault) ∧
      Buffer.encode bytes = encode bytes ∧ Buffer.decode text = decode text := by
  refine ⟨decode_eq_ok_iff text bytes, length_encode bytes, ⟨?_, decode_of_refused⟩,
    Buffer.encode_eq bytes, Buffer.decode_eq text⟩
  intro hFault
  rcases refused_or_token text with ⟨first, hRefused⟩ | ⟨bytes', hToken⟩
  · cases hFault.symm.trans (decode_of_refused hRefused)
    exact hRefused
  · cases hFault.symm.trans ((decode_eq_ok_iff text bytes').mpr hToken)

end SignedDirectory.Token
