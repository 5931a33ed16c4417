import Mathlib.Data.List.Basic
import Mathlib.Tactic.Ring
import SignedDirectory.Key
import SignedDirectory.Proofs.Success

/-!
# Tokens are canonical

Reading a token accepts exactly what writing produces: `decodeChars_eq_ok_iff` for bare tokens,
`unwrap_eq_ok_iff` for wrapped ones and `PublicKey.ofToken_eq_ok_iff` for the tokens of public keys.
The argument passes through lists of bits. Symbols stand for groups of five of them, bytes for
groups of eight, and the zeros that fill up the last symbol are fewer than five.
-/

namespace SignedDirectory.Token

/-! ## Numbers and their bits -/

@[simp] theorem length_bits (width value : Nat) : (bits width value).length = width := by
  induction width with
  | zero => rfl
  | succ width ih => simp [bits, ih]

theorem foldl_bits_eq (bs : List Bool) (n : Nat) :
    bs.foldl (fun n b => 2 * n + b.toNat) n = 2 ^ bs.length * n + ofBits bs := by
  rw [ofBits]
  induction bs generalizing n with
  | nil => simp
  | cons b bs ih =>
    rw [List.foldl_cons, List.foldl_cons, ih (2 * n + b.toNat), ih (2 * 0 + b.toNat),
      List.length_cons, pow_succ]
    ring

theorem ofBits_cons (b : Bool) (bs : List Bool) :
    ofBits (b :: bs) = 2 ^ bs.length * b.toNat + ofBits bs := by
  simpa [ofBits] using foldl_bits_eq bs b.toNat

theorem ofBits_lt (bs : List Bool) : ofBits bs < 2 ^ bs.length := by
  induction bs with
  | nil => simp [ofBits]
  | cons b bs ih =>
    rw [ofBits_cons, List.length_cons, pow_succ]
    have hBit : 2 ^ bs.length * b.toNat ≤ 2 ^ bs.length * 1 :=
      Nat.mul_le_mul_left _ (Bool.toNat_le b)
    omega

theorem ofBits_bits (width value : Nat) : ofBits (bits width value) = value % 2 ^ width := by
  induction width with
  | zero => simp [bits, ofBits, Nat.mod_one]
  | succ width ih =>
    rw [bits, ofBits_cons, length_bits, ih, Nat.mod_pow_succ, Nat.toNat_testBit, Nat.add_comm]

theorem bits_congr {width m n : Nat} (h : ∀ i < width, m.testBit i = n.testBit i) :
    bits width m = bits width n := by
  induction width with
  | zero => rfl
  | succ width ih =>
    rw [bits, bits, h width (by omega), ih (fun i hi => h i (by omega))]

theorem bits_ofBits (bs : List Bool) : bits bs.length (ofBits bs) = bs := by
  induction bs with
  | nil => rfl
  | cons b bs ih =>
    have hBit := Nat.testBit_two_pow_mul_add b.toNat (ofBits_lt bs)
    have hTop : (ofBits (b :: bs)).testBit bs.length = b := by
      rw [ofBits_cons, hBit]
      cases b <;> simp
    have hLow : bits bs.length (ofBits (b :: bs)) = bits bs.length (ofBits bs) := by
      apply bits_congr
      intro i hi
      rw [ofBits_cons, hBit, if_pos hi]
    rw [List.length_cons, bits, hTop, hLow, ih]

/-! ## Symbols -/

theorem value?_symbol {n : Nat} (h : n < 32) : value? (symbol n) = some n := by
  revert n
  decide

theorem value?_eq_some {ch : Char} {n : Nat} (h : value? ch = some n) :
    n < 32 ∧ symbol n = ch := by
  obtain ⟨hLength, hSymbol, _⟩ := List.idxOf?_eq_some_iff.mp h
  refine ⟨hLength, ?_⟩
  rw [symbol, List.getD_eq_getElem?_getD, List.getElem?_eq_getElem hLength]
  exact hSymbol

theorem readSymbols_symbol (position : Nat) {bs : List Bool} (h : bs.length = 5)
    (chars : List Char) :
    readSymbols position (symbol (ofBits bs) :: chars) =
      (bs ++ ·) <$> readSymbols (position + (symbol (ofBits bs)).utf8Size) chars := by
  have hSmall : ofBits bs < 32 := by simpa [h] using ofBits_lt bs
  have hBits : bits 5 (ofBits bs) = bs := h ▸ bits_ofBits bs
  rw [readSymbols, value?_symbol hSmall]
  simp only [hBits]

theorem readSymbols_symbols (bs : List Bool) (h : 5 ∣ bs.length) (position : Nat) :
    readSymbols position (symbols bs) = .ok bs := by
  fun_induction symbols bs generalizing position with
  | case1 => rfl
  | case2 a b c d e rest ih =>
    rw [readSymbols_symbol position rfl, ih (by simpa [Nat.dvd_add_left] using h)]
    rfl
  | case3 last hNil hMore =>
    -- Fewer than five bits are left, and none is the only multiple of five among those lengths.
    rcases last with _ | ⟨a, _ | ⟨b, _ | ⟨c, _ | ⟨d, _ | ⟨e, rest⟩⟩⟩⟩⟩
    · exact absurd rfl hNil
    iterate 4 exact absurd h (by simp)
    · exact absurd rfl (hMore a b c d e rest)

theorem symbols_of_readSymbols {position : Nat} {chars : List Char} {bs : List Bool}
    (h : readSymbols position chars = .ok bs) : symbols bs = chars ∧ bs.length = 5 * chars.length := by
  induction chars generalizing position bs with
  | nil => cases h; exact ⟨rfl, rfl⟩
  | cons ch chars ih =>
    rw [readSymbols] at h
    split at h
    · cases h
    · rename_i n hValue
      obtain ⟨hSmall, hSymbol⟩ := value?_eq_some hValue
      cases hRest : readSymbols (position + ch.utf8Size) chars with
      | error fault => rw [hRest] at h; cases h
      | ok rest =>
        rw [hRest] at h
        cases h
        obtain ⟨hSymbols, hLength⟩ := ih hRest
        have hNumber : ofBits (bits 5 n) = n := by
          rw [ofBits_bits]
          exact Nat.mod_eq_of_lt hSmall
        constructor
        · change symbol (ofBits (bits 5 n)) :: symbols rest = ch :: chars
          rw [hNumber, hSymbol, hSymbols]
        · simp [hLength]
          omega

/-- Zeros that fill up the last group of five do not change the symbols. -/
theorem symbols_append_zeros (bs : List Bool) {k : Nat} (hk : k < 5) (h : 5 ∣ bs.length + k) :
    symbols (bs ++ List.replicate k false) = symbols bs := by
  fun_induction symbols bs with
  | case1 =>
    obtain rfl : k = 0 := by simp at h; omega
    rfl
  | case2 a b c d e rest ih =>
    have hRest : 5 ∣ rest.length + k := by simp at h; omega
    simpa [symbols] using ih hRest
  | case3 last hNil hMore =>
    rcases last with _ | ⟨a, _ | ⟨b, _ | ⟨c, _ | ⟨d, _ | ⟨e, rest⟩⟩⟩⟩⟩
    · exact absurd rfl hNil
    · obtain rfl : k = 4 := by simp at h; omega
      rfl
    · obtain rfl : k = 3 := by simp at h; omega
      rfl
    · obtain rfl : k = 2 := by simp at h; omega
      rfl
    · obtain rfl : k = 1 := by simp at h; omega
      rfl
    · exact absurd rfl (hMore a b c d e rest)

/-! ## Bytes -/

/-- The bits of a byte string, eight for a byte. -/
def bitString (bytes : Bytes) : List Bool := bytes.flatMap fun b => bits 8 b.toNat

theorem bitString_cons (b : UInt8) (bytes : Bytes) :
    bitString (b :: bytes) = bits 8 b.toNat ++ bitString bytes := List.flatMap_cons

theorem length_bitString (bytes : Bytes) : (bitString bytes).length = 8 * bytes.length := by
  induction bytes with
  | nil => rfl
  | cons b bytes ih =>
    rw [bitString_cons, List.length_append, length_bits, ih, List.length_cons]
    omega

theorem octets_bits_append (b : UInt8) (rest : List Bool) :
    octets (bits 8 b.toNat ++ rest) = (b :: (octets rest).1, (octets rest).2) := by
  have hByte : (ofBits (bits 8 b.toNat)).toUInt8 = b := by
    rw [ofBits_bits, Nat.mod_eq_of_lt b.toNat_lt]
    exact UInt8.ofNat_toNat
  change ((ofBits (bits 8 b.toNat)).toUInt8 :: (octets rest).1, (octets rest).2) = _
  rw [hByte]

theorem octets_of_short {left : List Bool} (h : left.length < 8) : octets left = ([], left) := by
  fun_cases octets left with
  | case1 => simp at h; omega
  | case2 => rfl

theorem octets_bitString_append (bytes : Bytes) {left : List Bool} (h : left.length < 8) :
    octets (bitString bytes ++ left) = (bytes, left) := by
  induction bytes with
  | nil => exact octets_of_short h
  | cons b bytes ih => rw [bitString_cons, List.append_assoc, octets_bits_append, ih]

theorem eq_bitString_append_of_octets (bs : List Bool) :
    bs = bitString (octets bs).1 ++ (octets bs).2 := by
  fun_induction octets bs with
  | case1 a b c d e f g h rest bytes left hRest ih =>
    have hByte : bits 8 (ofBits [a, b, c, d, e, f, g, h]).toUInt8.toNat =
        [a, b, c, d, e, f, g, h] := by
      have hSmall : ofBits [a, b, c, d, e, f, g, h] < 256 := by
        simpa using ofBits_lt [a, b, c, d, e, f, g, h]
      have hBits : bits 8 (ofBits [a, b, c, d, e, f, g, h]) = [a, b, c, d, e, f, g, h] :=
        bits_ofBits [a, b, c, d, e, f, g, h]
      rw [Nat.toUInt8, UInt8.toNat_ofNat', Nat.mod_eq_of_lt hSmall, hBits]
    rw [hRest] at ih
    rw [bitString_cons, hByte, List.append_assoc, ← ih]
    rfl
  | case2 => rfl

theorem length_leftover_lt (bs : List Bool) : (octets bs).2.length < 8 := by
  fun_induction octets bs with
  | case1 a b c d e f g h rest bytes left hRest ih =>
    rw [hRest] at ih
    exact ih
  | case2 left hMore =>
    rcases left with
      _ | ⟨a, _ | ⟨b, _ | ⟨c, _ | ⟨d, _ | ⟨e, _ | ⟨f, _ | ⟨g, _ | ⟨h, rest⟩⟩⟩⟩⟩⟩⟩⟩
    iterate 8 simp
    · exact absurd rfl (hMore a b c d e f g h rest)

/-- The bits that are left over are those beyond a multiple of eight. -/
theorem length_leftover (bs : List Bool) : (octets bs).2.length = bs.length % 8 := by
  have hLength := congrArg List.length (eq_bitString_append_of_octets bs)
  rw [List.length_append, length_bitString] at hLength
  have hFew := length_leftover_lt bs
  omega

/-! ## Bare tokens -/

theorem exists_padding (n : Nat) : ∃ k < 5, 5 ∣ n + k := by
  refine ⟨(5 - n % 5) % 5, by omega, by omega⟩

theorem decodeChars_of_read {chars : List Char} {bs : List Bool} (h : readSymbols 0 chars = .ok bs) :
    decodeChars chars =
      if 5 ≤ (octets bs).2.length then .error (.invalidLength chars.length)
      else if (octets bs).2.any id then .error .nonCanonical
      else .ok (octets bs).1 := by
  rw [decodeChars, h]
  rfl

theorem decodeChars_encodeChars (bytes : Bytes) : decodeChars (encodeChars bytes) = .ok bytes := by
  obtain ⟨k, hk, hDvd⟩ := exists_padding (bitString bytes).length
  let left := List.replicate k false
  have hRead : readSymbols 0 (encodeChars bytes) = .ok (bitString bytes ++ left) := by
    change readSymbols 0 (symbols (bitString bytes)) = _
    rw [← symbols_append_zeros _ hk hDvd]
    exact readSymbols_symbols _ (by simpa using hDvd) 0
  have hShort : left.length < 5 := by simpa [left] using hk
  have hOctets := octets_bitString_append bytes (show left.length < 8 by omega)
  have hZero : left.any id = false := by simp [left]
  refine bind_eq_ok_iff.mpr ⟨_, hRead, ?_⟩
  simp only [hOctets, hZero, ge_iff_le, Nat.not_le.mpr hShort]
  rfl

/-- Whatever is read as a token is what is written for the bytes read. -/
theorem encodeChars_of_decodeChars {chars : List Char} {bytes : Bytes}
    (h : decodeChars chars = .ok bytes) : chars = encodeChars bytes := by
  obtain ⟨bs, hRead, h⟩ := bind_eq_ok_iff.mp h
  obtain ⟨hSymbols, hLength⟩ := symbols_of_readSymbols hRead
  have hBits := eq_bitString_append_of_octets bs
  generalize octets bs = read at h hBits
  obtain ⟨bytes', left⟩ := read
  simp only at h hBits
  split at h
  · cases h
  · rename_i hShort
    split at h
    · cases h
    · rename_i hZero
      cases h
      have hLeft : left = List.replicate left.length false := by
        rw [List.eq_replicate_iff]
        exact ⟨rfl, by simpa using hZero⟩
      have hDvd : 5 ∣ (bitString bytes).length + left.length := by
        rw [← List.length_append, ← hBits, hLength]
        exact Nat.dvd_mul_right 5 _
      rw [← hSymbols, hBits, hLeft]
      exact symbols_append_zeros _ (by omega) hDvd

theorem decodeChars_eq_ok_iff (chars : List Char) (bytes : Bytes) :
    decodeChars chars = .ok bytes ↔ chars = encodeChars bytes :=
  ⟨encodeChars_of_decodeChars, fun h => h ▸ decodeChars_encodeChars bytes⟩

theorem encodeChars_injective {bytes bytes' : Bytes} (h : encodeChars bytes = encodeChars bytes') :
    bytes = bytes' := by
  have hRead := decodeChars_encodeChars bytes
  rw [h, decodeChars_encodeChars] at hRead
  exact (Except.ok.inj hRead).symm

/-! ## Wrapped tokens -/

theorem toList_wrap (bytes : Bytes) (tag : String) :
    (wrap bytes tag).toList = tag.toList ++ ('(' :: (encodeChars bytes ++ [')'])) := by
  simp [wrap, encode]

theorem inside?_eq_some_iff {tag wrapped : String} {chars : List Char} :
    inside? tag wrapped = some chars ↔ wrapped.toList = tag.toList ++ ('(' :: (chars ++ [')'])) := by
  constructor
  · intro h
    obtain ⟨rest, hTag, h⟩ := Option.bind_eq_some_iff.mp h
    obtain ⟨rest', hOpen, hClose⟩ := Option.bind_eq_some_iff.mp h
    rw [← List.isPrefixOf?_eq_some_iff_append_eq.mp hTag,
      ← List.isPrefixOf?_eq_some_iff_append_eq.mp hOpen,
      ← List.isSuffixOf?_eq_some_iff_append_eq.mp hClose]
    rfl
  · intro h
    refine Option.bind_eq_some_iff.mpr
      ⟨_, List.isPrefixOf?_eq_some_iff_append_eq.mpr h.symm, ?_⟩
    refine Option.bind_eq_some_iff.mpr
      ⟨chars ++ [')'], List.isPrefixOf?_eq_some_iff_append_eq.mpr rfl, ?_⟩
    exact List.isSuffixOf?_eq_some_iff_append_eq.mpr rfl

theorem unwrap_eq_ok_iff (wrapped tag : String) (bytes : Bytes) :
    unwrap wrapped tag = .ok bytes ↔ wrapped = wrap bytes tag := by
  rw [unwrap, ← String.toList_inj, toList_wrap]
  constructor
  · intro h
    split at h
    · cases h
    · rename_i chars hInside
      rw [← encodeChars_of_decodeChars h]
      exact inside?_eq_some_iff.mp hInside
  · intro h
    rw [inside?_eq_some_iff.mpr h]
    exact decodeChars_encodeChars bytes

theorem wrap_injective {bytes bytes' : Bytes} {tag : String} (h : wrap bytes tag = wrap bytes' tag) :
    bytes = bytes' := by
  have hRead := (unwrap_eq_ok_iff _ tag bytes).mpr h.symm
  rw [(unwrap_eq_ok_iff _ tag bytes').mpr rfl] at hRead
  exact (Except.ok.inj hRead).symm

theorem toVector?_eq_some_iff {n : Nat} {bytes : Bytes} {fixed : Vector UInt8 n} :
    bytes.toVector? n = some fixed ↔ bytes = fixed.toList := by
  constructor
  · intro h
    obtain ⟨hLength, h⟩ := Option.dite_none_right_eq_some.mp h
    cases h
    rfl
  · rintro rfl
    rw [Bytes.toVector?, dif_pos (Vector.length_toList)]
    rfl

theorem unwrapFixed_eq_ok_iff (size : Nat) (wrapped tag : String) (fixed : Vector UInt8 size) :
    unwrapFixed size wrapped tag = .ok fixed ↔ wrapped = wrap fixed.toList tag := by
  constructor
  · intro h
    obtain ⟨bytes, hUnwrap, h⟩ := bind_eq_ok_iff.mp h
    rw [unwrap_eq_ok_iff] at hUnwrap
    split at h
    · rename_i fixed' hVector
      cases h
      rw [hUnwrap, toVector?_eq_some_iff.mp hVector]
    · cases h
  · intro h
    refine bind_eq_ok_iff.mpr ⟨_, (unwrap_eq_ok_iff wrapped tag _).mpr h, ?_⟩
    rw [toVector?_eq_some_iff.mpr rfl]
    rfl

end SignedDirectory.Token

namespace SignedDirectory.PublicKey

variable [SignatureScheme]

/-- A public key is read from its own token and from nothing else. -/
theorem ofToken_eq_ok_iff (token : String) (key : PublicKey) :
    ofToken token = .ok key ↔ SignatureScheme.isKey key.bytes = true ∧ token = key.toToken := by
  constructor
  · intro h
    obtain ⟨bytes, hUnwrap, h⟩ := bind_eq_ok_iff.mp h
    rw [Token.unwrapFixed_eq_ok_iff] at hUnwrap
    rw [ofVector] at h
    split at h
    · rename_i hKey
      cases h
      exact ⟨hKey, hUnwrap⟩
    · cases h
  · rintro ⟨hKey, h⟩
    refine bind_eq_ok_iff.mpr ⟨key.bytes, (Token.unwrapFixed_eq_ok_iff 32 token _ _).mpr h, ?_⟩
    rw [ofVector, if_pos hKey]

omit [SignatureScheme] in
theorem toToken_injective {key key' : PublicKey} (h : key.toToken = key'.toToken) : key = key' := by
  have hBytes : key.bytes.toList = key'.bytes.toList := Token.wrap_injective h
  cases key
  cases key'
  congr
  exact Vector.toList_inj.mp hBytes

end SignedDirectory.PublicKey
