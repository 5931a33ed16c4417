import Mathlib.Tactic.SplitIfs
import SignedDirectory.Bytes

/-!
# Texts in the order of their bytes

Texts are compared character by character, and their UTF-8 bytes byte by byte; the two orders are the
same (`Bytes.ofString_lt_iff`). Of two different characters the lesser one has the lesser bytes, and
neither encoding goes on where the other one ends.
-/

namespace SignedDirectory.Bytes

theorem ofString_eq_flatMap (s : String) : ofString s = s.toList.flatMap String.utf8EncodeChar := by
  rw [ofString, String.toUTF8_eq_toByteArray, ← String.utf8Encode_toList, List.utf8Encode,
    List.data_toByteArray]

/-- The base-64 digits of a code point are what is left of it after each division by 64. -/
theorem div_pow_sixty_four (n : Nat) : n / 4096 = n / 64 / 64 ∧ n / 262144 = n / 64 / 64 / 64 := by
  omega

theorem utf8EncodeChar_append_lt {ch ch' : Char} (h : ch < ch') (rest rest' : Bytes) :
    String.utf8EncodeChar ch ++ rest < String.utf8EncodeChar ch' ++ rest' := by
  have hLt : ch.val.toNat < ch'.val.toNat := h
  have hMax : ch'.val.toNat < 0x110000 := by
    rcases ch'.valid with hValid | hValid <;> omega
  simp only [String.utf8EncodeChar, div_pow_sixty_four]
  -- One case for each pair of lengths; the first byte tells the length.
  split_ifs <;>
    simp only [List.cons_append, List.nil_append, List.cons_lt_cons_iff, UInt8.lt_iff_toNat_lt,
      ← UInt8.toNat_inj, UInt8.toNat_ofNat'] <;>
    omega

theorem flatMap_utf8EncodeChar_lt {chars chars' : List Char} (h : chars < chars') :
    chars.flatMap String.utf8EncodeChar < chars'.flatMap String.utf8EncodeChar := by
  induction (h : List.Lex (· < ·) chars chars') with
  | @nil ch chars =>
    obtain ⟨b, rest, hBytes⟩ := List.exists_cons_of_ne_nil (String.utf8EncodeChar_ne_nil (c := ch))
    rw [List.flatMap_nil, List.flatMap_cons, hBytes]
    exact .nil
  | cons _ ih =>
    rw [List.flatMap_cons, List.flatMap_cons]
    exact List.append_left_lt ih
  | rel hLt =>
    rw [List.flatMap_cons, List.flatMap_cons]
    exact utf8EncodeChar_append_lt hLt _ _

/-- Texts are ordered as their bytes are. -/
theorem ofString_lt_iff (s t : String) : ofString s < ofString t ↔ s < t := by
  have hMono {s t : String} (h : s < t) : ofString s < ofString t := by
    rw [ofString_eq_flatMap, ofString_eq_flatMap]
    exact flatMap_utf8EncodeChar_lt (String.lt_iff.mp h)
  refine ⟨fun h => ?_, hMono⟩
  rcases Decidable.em (s < t) with hLt | hNot
  · exact hLt
  · exfalso
    rcases Decidable.em (t < s) with hGt | hNot'
    · exact List.lt_asymm h (hMono hGt)
    · obtain rfl := String.le_antisymm (String.not_lt.mp hNot') (String.not_lt.mp hNot)
      exact List.lt_irrefl _ h

end SignedDirectory.Bytes
