import SignedDirectory.Proofs.Token.Canonical

/-!
# Tokens through a buffer

`encode` and `decode` are said by lists of bits. The same is done with one word of sixteen bits, into which
bytes or symbols are shifted at its low end and out of which symbols or bytes are taken above the bits that
have to wait. `Buffer.encode_eq` and `Buffer.decode_eq` say so for every byte string and every text: at most
four bits wait for the next byte and at most seven for the next symbol, so that none is shifted out.
-/

namespace SignedDirectory.Token

/-- The lengths that no token has: the bits behind the last whole byte would fill a symbol. -/
def ImpossibleLength (n : Nat) : Prop := n % 8 = 1 ∨ n % 8 = 3 ∨ n % 8 = 6

instance : DecidablePred ImpossibleLength := fun _ => inferInstanceAs (Decidable (_ ∨ _))

theorem impossibleLength_iff (n : Nat) : ImpossibleLength n ↔ 5 ≤ 5 * n % 8 := by
  have hSmall : n % 8 < 8 := Nat.mod_lt n (by decide)
  rw [ImpossibleLength, Nat.mul_mod]
  generalize n % 8 = r at hSmall ⊢
  revert r
  decide

/-- A word whose last `count` bits wait to be written. -/
structure Buffer where
  word : UInt16
  count : Nat

namespace Buffer

def empty : Buffer := ⟨0, 0⟩

/-- Takes in a value of some width behind the bits that wait. -/
def push (b : Buffer) (width : Nat) (value : UInt16) : Buffer :=
  ⟨b.word <<< width.toUInt16 ||| value, b.count + width⟩

/-- Forgets the bits of the word that are written. -/
def trim (b : Buffer) : Buffer := { b with word := b.word &&& (1 <<< b.count.toUInt16 - 1) }

/-- The symbols of the bits that wait, as long as there are five of them. -/
def drain (b : Buffer) : List Char × Buffer :=
  if 5 ≤ b.count then
    let count := b.count - 5
    let (symbols, last) := drain ⟨b.word, count⟩
    (symbol ((b.word >>> count.toUInt16) &&& 0x1f).toNat :: symbols, last)
  else ([], b)
termination_by b.count

/-- The symbols of the bits that wait and of the bytes, the last one filled up with zeros. -/
def encodeChars (b : Buffer) : Bytes → List Char
  | [] =>
    if 0 < b.count then [symbol ((b.word <<< (5 - b.count).toUInt16) &&& 0x1f).toNat] else []
  | byte :: bytes =>
    let (symbols, last) := (b.push 8 byte.toUInt16).drain
    symbols ++ encodeChars last.trim bytes

def encode (bytes : Bytes) : String := String.ofList (encodeChars empty bytes)

/-- The byte of the bits that wait, if there are eight of them. -/
def takeByte (b : Buffer) : Bytes × Buffer :=
  if 8 ≤ b.count then
    let count := b.count - 8
    ([(b.word >>> count.toUInt16).toUInt8], trim ⟨b.word, count⟩)
  else ([], b)

/-- The bytes of the bits that wait and of the symbols, and what is left in the buffer; `position` is the
byte offset of the first symbol. -/
def decodeChars (b : Buffer) (position : Nat) : List Char → Except FormatError (Bytes × Buffer)
  | [] => .ok ([], b)
  | ch :: rest =>
    match value? ch with
    | none => .error (.invalidCharacter ch position)
    | some value => do
      let (written, next) := (b.push 5 value.toUInt16).takeByte
      let (bytes, last) ← decodeChars next (position + ch.utf8Size) rest
      return (written ++ bytes, last)

def decode (token : String) : Except FormatError Bytes := do
  let (bytes, last) ← decodeChars empty 0 token.toList
  if ImpossibleLength token.utf8ByteSize then throw (.invalidLength token.utf8ByteSize)
  if last.word ≠ 0 then throw .nonCanonical
  return bytes

/-! ## The bits of a buffer -/

/-- The bits that wait. -/
def contents (b : Buffer) : List Bool := bits b.count b.word.toNat

/-- Nothing but what waits is in the word. -/
def Trimmed (b : Buffer) : Prop := b.word.toNat < 2 ^ b.count

end Buffer

theorem bits_add (k width n : Nat) : bits (k + width) n = bits k (n >>> width) ++ bits width n := by
  induction k with
  | zero => rw [Nat.zero_add]; rfl
  | succ k ih => rw [Nat.succ_add, bits, bits, ih, Nat.testBit_shiftRight, Nat.add_comm width k]; rfl

theorem bits_zero (width : Nat) : bits width 0 = List.replicate width false := by
  induction width with
  | zero => rfl
  | succ width ih => rw [bits, ih, Nat.zero_testBit]; rfl

theorem bits_mod (width n : Nat) : bits width (n % 2 ^ width) = bits width n := by
  apply bits_congr
  intro i hi
  rw [Nat.testBit_mod_two_pow, decide_eq_true hi, Bool.true_and]

theorem toNat_shift {width : Nat} (h : width < 16) : width.toUInt16.toNat % 16 = width := by
  rw [Nat.toUInt16, UInt16.toNat_ofNat']
  omega

namespace Buffer

theorem contents_push (b : Buffer) {width : Nat} {value : UInt16} (hCount : b.count + width < 16)
    (hValue : value.toNat < 2 ^ width) :
    (b.push width value).contents = b.contents ++ bits width value.toNat := by
  have hWord : (b.word <<< width.toUInt16 ||| value).toNat =
      (b.word.toNat <<< width) % 2 ^ 16 ||| value.toNat := by
    rw [UInt16.toNat_or, UInt16.toNat_shiftLeft, toNat_shift (by omega)]
  rw [contents, push, hWord, bits_add]
  congr 1
  · apply bits_congr
    intro i hi
    rw [Nat.testBit_shiftRight, Nat.testBit_or, Nat.testBit_mod_two_pow, Nat.testBit_shiftLeft,
      Nat.testBit_lt_two_pow (hValue.trans_le (Nat.pow_le_pow_right (by decide) (by omega)))]
    have hInside : width + i < 16 := by omega
    simp [hInside]
  · apply bits_congr
    intro i hi
    have hBelow : ¬width ≤ i := by omega
    rw [Nat.testBit_or, Nat.testBit_mod_two_pow, Nat.testBit_shiftLeft]
    simp [hBelow]

theorem toNat_trim (b : Buffer) (hCount : b.count < 16) :
    b.trim.word.toNat = b.word.toNat % 2 ^ b.count := by
  have hMask : ∀ n < 16, ((1 : UInt16) <<< n.toUInt16 - 1).toNat = 2 ^ n - 1 := by decide
  rw [trim, UInt16.toNat_and, hMask _ hCount, Nat.and_two_pow_sub_one_eq_mod]

theorem contents_trim (b : Buffer) (hCount : b.count < 16) : b.trim.contents = b.contents := by
  rw [contents, toNat_trim b hCount]
  exact bits_mod _ _

theorem trimmed_trim (b : Buffer) (hCount : b.count < 16) : b.trim.Trimmed := by
  rw [Trimmed, toNat_trim b hCount]
  exact Nat.mod_lt _ (Nat.two_pow_pos _)

theorem length_contents (b : Buffer) : b.contents.length = b.count := length_bits _ _

theorem contents_eq_append (word : UInt16) (k : Nat) {count : Nat} (hCount : count < 16) :
    contents ⟨word, k + count⟩ = bits k (word >>> count.toUInt16).toNat ++ contents ⟨word, count⟩ := by
  rw [contents, bits_add, UInt16.toNat_shiftRight, toNat_shift hCount]
  rfl

end Buffer

/-! ## Writing -/

theorem symbols_append {five : List Bool} (h : five.length = 5) (rest : List Bool) :
    symbols (five ++ rest) = symbol (ofBits five) :: symbols rest := by
  match five, h with
  | [_, _, _, _, _], _ => rfl

theorem toNat_and_symbolMask (word : UInt16) : (word &&& 0x1f).toNat = ofBits (bits 5 word.toNat) := by
  rw [ofBits_bits, UInt16.toNat_and]
  exact Nat.and_two_pow_sub_one_eq_mod word.toNat 5

namespace Buffer

theorem symbols_drain (b : Buffer) (hCount : b.count < 16) (rest : List Bool) :
    symbols (b.contents ++ rest) = b.drain.1 ++ symbols (b.drain.2.contents ++ rest) ∧
      b.drain.2.count < 5 := by
  fun_induction drain b with
  | case1 b hFive count written last hDrain ih =>
    have hSplit : b.count = 5 + count := (Nat.add_sub_cancel' hFive).symm
    have hBits : b.contents =
        bits 5 (b.word >>> count.toUInt16).toNat ++ contents ⟨b.word, count⟩ := by
      rw [← contents_eq_append b.word 5 (by omega), ← hSplit]
    obtain ⟨hSymbols, hLast⟩ := ih (show count < 16 by omega)
    rw [hDrain] at hSymbols hLast
    refine ⟨?_, hLast⟩
    rw [hBits, List.append_assoc, symbols_append (length_bits 5 _), hSymbols, toNat_and_symbolMask]
    rfl
  | case2 b hFew => exact ⟨rfl, Nat.not_le.mp hFew⟩

theorem encodeChars_nil (b : Buffer) (hCount : b.count < 5) :
    b.encodeChars [] = symbols b.contents := by
  rw [encodeChars]
  split
  · rename_i hSome
    have hFill : b.count + (5 - b.count) = 5 := Nat.add_sub_cancel' hCount.le
    -- Shifting the word on is taking in zeros.
    have hBits : (b.push (5 - b.count) 0).contents = b.contents ++ bits (5 - b.count) 0 :=
      contents_push b (by omega) (Nat.two_pow_pos _)
    rw [contents, push, UInt16.or_zero, hFill, bits_zero] at hBits
    have hGroup := symbols_append (hBits ▸ length_bits 5 _) []
    rw [List.append_nil, symbols_append_zeros b.contents (by omega) (by rw [length_contents, hFill])]
      at hGroup
    rw [toNat_and_symbolMask, hBits, hGroup]
    rfl
  · rename_i hNone
    have hEmpty : b.contents = [] := List.eq_nil_of_length_eq_zero (by rw [length_contents]; omega)
    rw [hEmpty]
    rfl

theorem encodeChars_eq (b : Buffer) (hCount : b.count < 5) (bytes : Bytes) :
    b.encodeChars bytes = symbols (b.contents ++ bitString bytes) := by
  induction bytes generalizing b with
  | nil => rw [encodeChars_nil b hCount, bitString, List.flatMap_nil, List.append_nil]
  | cons byte bytes ih =>
    have hByte : byte.toUInt16.toNat = byte.toNat := UInt8.toNat_toUInt16 byte
    have hPush : (b.push 8 byte.toUInt16).contents = b.contents ++ bits 8 byte.toNat := by
      rw [contents_push b (by omega) (hByte ▸ byte.toNat_lt), hByte]
    obtain ⟨hSymbols, hLast⟩ :=
      symbols_drain (b.push 8 byte.toUInt16) (show b.count + 8 < 16 by omega) (bitString bytes)
    rw [encodeChars, bitString_cons, ← List.append_assoc, ← hPush, hSymbols,
      ← contents_trim _ (hLast.trans (by decide))]
    exact congrArg (_ ++ ·) (ih (trim _) hLast)

theorem encode_eq (bytes : Bytes) : encode bytes = Token.encode bytes := by
  rw [encode, encodeChars_eq empty (by decide)]
  rfl

/-! ## Reading -/

theorem trimmed_push {b : Buffer} (h : b.Trimmed) {width : Nat} {value : UInt16}
    (hCount : b.count + width < 16) (hValue : value.toNat < 2 ^ width) : (b.push width value).Trimmed := by
  have hShift : b.word.toNat <<< width < 2 ^ (b.count + width) := by
    rw [Nat.shiftLeft_eq, Nat.pow_add]
    exact Nat.mul_lt_mul_of_pos_right h (Nat.two_pow_pos width)
  have hWidth : 2 ^ width ≤ 2 ^ (b.count + width) := Nat.pow_le_pow_right Nat.two_pos (by omega)
  rw [Trimmed, push, UInt16.toNat_or, UInt16.toNat_shiftLeft, toNat_shift (by omega)]
  exact Nat.or_lt_two_pow ((Nat.mod_le _ _).trans_lt hShift) (hValue.trans_le hWidth)

theorem bits_toUInt8 (word : UInt16) : bits 8 word.toUInt8.toNat = bits 8 word.toNat := by
  rw [UInt16.toNat_toUInt8]
  exact bits_mod 8 _

theorem octets_takeByte (b : Buffer) (hCount : b.count < 16) (bs : List Bool) :
    octets (b.contents ++ bs) = (b.takeByte.1 ++ (octets (b.takeByte.2.contents ++ bs)).1,
      (octets (b.takeByte.2.contents ++ bs)).2) := by
  rw [takeByte]
  split
  · rename_i hEight
    have hFew : b.count - 8 < 16 := by omega
    have hBits := contents_eq_append b.word 8 hFew
    rw [Nat.add_sub_cancel' hEight, ← bits_toUInt8] at hBits
    rw [show b.contents = _ from hBits, List.append_assoc, octets_bits_append,
      contents_trim ⟨b.word, b.count - 8⟩ hFew]
    rfl
  · rfl

theorem trimmed_takeByte {b : Buffer} (h : b.Trimmed) (hCount : b.count < 16) :
    b.takeByte.2.Trimmed ∧ b.takeByte.2.count < 8 := by
  rw [takeByte]
  split
  · rename_i hEight
    have hFew : b.count - 8 < 8 := by omega
    exact ⟨trimmed_trim ⟨b.word, b.count - 8⟩ (hFew.trans (by decide)), hFew⟩
  · rename_i hFew
    exact ⟨h, Nat.not_le.mp hFew⟩

/-- The symbols are read as `readSymbols` reads them, and the bytes are taken as `octets` takes them, with
the bits that wait in front. -/
theorem decodeChars_eq {b : Buffer} (hTrimmed : b.Trimmed) (hCount : b.count < 8) (position : Nat)
    (chars : List Char) :
    (∀ fault, readSymbols position chars = .error fault →
      b.decodeChars position chars = .error fault) ∧
    ∀ bs, readSymbols position chars = .ok bs → ∃ last, last.Trimmed ∧
      last.contents = (octets (b.contents ++ bs)).2 ∧
      b.decodeChars position chars = .ok ((octets (b.contents ++ bs)).1, last) := by
  induction chars generalizing position b with
  | nil =>
    refine ⟨fun fault h => (by cases h), fun bs h => ?_⟩
    cases h
    have hShort : octets (b.contents ++ []) = ([], b.contents) := by
      rw [List.append_nil, octets_of_short (by rwa [length_contents])]
    rw [hShort]
    exact ⟨b, hTrimmed, rfl, rfl⟩
  | cons ch rest ih =>
    rw [readSymbols, decodeChars]
    cases hValue : value? ch with
    | none => exact ⟨fun fault h => by cases h; rfl, fun bs h => by cases h⟩
    | some value =>
      have hSmall : value < 2 ^ 5 := (value?_eq_some hValue).1
      have hNat : value.toUInt16.toNat = value := by
        rw [Nat.toUInt16, UInt16.toNat_ofNat']
        omega
      have hSymbol : value.toUInt16.toNat < 2 ^ 5 := hNat.symm ▸ hSmall
      have hPush : (b.push 5 value.toUInt16).contents = b.contents ++ bits 5 value := by
        rw [contents_push b (by omega) hSymbol, hNat]
      have hWide : (b.push 5 value.toUInt16).count < 16 := show b.count + 5 < 16 by omega
      obtain ⟨hNext, hFew⟩ := trimmed_takeByte (trimmed_push hTrimmed (by omega) hSymbol) hWide
      obtain ⟨hFault, hRead⟩ := ih hNext hFew (position + ch.utf8Size)
      constructor
      · intro fault h
        exact bind_eq_error_iff.mpr (.inl (hFault fault (map_eq_error_iff.mp h)))
      · intro bs h
        obtain ⟨bs, hRest, rfl⟩ := map_eq_ok_iff.mp h
        obtain ⟨last, hLast, hContents, hDecode⟩ := hRead bs hRest
        have hOctets := octets_takeByte (b.push 5 value.toUInt16) hWide bs
        rw [hPush, List.append_assoc] at hOctets
        refine ⟨last, hLast, ?_, ?_⟩
        · rw [hOctets, hContents]
        · rw [hOctets]
          exact bind_eq_ok_iff.mpr ⟨_, hDecode, rfl⟩

theorem utf8ByteSize_of_read {position : Nat} {chars : List Char} {bs : List Bool}
    (h : readSymbols position chars = .ok bs) : (String.ofList chars).utf8ByteSize = chars.length := by
  have hAscii : ∀ n < 32, (symbol n).utf8Size = 1 := by decide
  induction chars generalizing position bs with
  | nil => rfl
  | cons ch rest ih =>
    rw [readSymbols] at h
    split at h
    · cases h
    · rename_i value hValue
      obtain ⟨hSmall, rfl⟩ := value?_eq_some hValue
      obtain ⟨bs, hRest, -⟩ := map_eq_ok_iff.mp h
      rw [String.ofList_cons, String.utf8ByteSize_append, String.utf8ByteSize_singleton, ih hRest,
        hAscii value hSmall, List.length_cons, Nat.add_comm]

theorem ofBits_eq_zero_iff (bs : List Bool) : ofBits bs = 0 ↔ bs.any id = false := by
  induction bs with
  | nil => simp [ofBits]
  | cons b bs ih => cases b <;> simp [ofBits_cons, ih]

theorem word_eq_zero_iff {b : Buffer} (h : b.Trimmed) : b.word = 0 ↔ b.contents.any id = false := by
  rw [← ofBits_eq_zero_iff, contents, ofBits_bits, Nat.mod_eq_of_lt h, ← UInt16.toNat_inj]
  rfl

theorem decode_of_read {token : String} {bytes : Bytes} {last : Buffer}
    (h : empty.decodeChars 0 token.toList = .ok (bytes, last)) :
    decode token =
      if ImpossibleLength token.utf8ByteSize then .error (.invalidLength token.utf8ByteSize)
      else if last.word ≠ 0 then .error .nonCanonical
      else .ok bytes := by
  rw [decode, h]
  rfl

theorem decode_eq (token : String) : decode token = Token.decode token := by
  obtain ⟨hFault, hRead⟩ :=
    decodeChars_eq (b := empty) (show (0 : Nat) < 1 by decide) (by decide) 0 token.toList
  rw [Token.decode]
  cases hBits : readSymbols 0 token.toList with
  | error fault =>
    rw [decode, hFault fault hBits, Token.decodeChars, hBits]
    rfl
  | ok bs =>
    obtain ⟨last, hTrimmed, hContents, hDecode⟩ : ∃ last : Buffer, last.Trimmed ∧
        last.contents = (octets bs).2 ∧
        empty.decodeChars 0 token.toList = .ok ((octets bs).1, last) := hRead bs hBits
    have hSize : token.utf8ByteSize = token.toList.length := by
      rw [← utf8ByteSize_of_read hBits, String.ofList_toList]
    have hLength : ImpossibleLength token.toList.length ↔ 5 ≤ (octets bs).2.length := by
      rw [length_leftover, (symbols_of_readSymbols hBits).2, impossibleLength_iff]
    have hLeft : last.word ≠ 0 ↔ (octets bs).2.any id = true := by
      rw [ne_eq, word_eq_zero_iff hTrimmed, hContents, Bool.not_eq_false]
    rw [decode_of_read hDecode, decodeChars_of_read hBits, hSize]
    simp only [hLength, hLeft]

end Buffer

end SignedDirectory.Token
