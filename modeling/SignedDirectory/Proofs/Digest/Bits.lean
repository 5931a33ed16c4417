import Mathlib.Data.Fin.Basic
import SignedDirectory.Digest

/-!
# The bits of digests

Digests with the same bits are equal (`ext_bits`), and `firstDifference` is the depth down to which
two digests agree: they have the same bits below it and, unless they are equal, differ at it.
-/

namespace SignedDirectory.Digest

/-- The digest that repeats one byte. -/
def filled (byte : UInt8) : Digest := ⟨Vector.replicate 64 byte⟩

theorem bit?_of_lt (d : Digest) {i : Nat} (h : i < 512) : d.bit? i = some (d.bit ⟨i, h⟩) := dif_pos h

/-! ## Bits of bytes -/

theorem shiftRight_and_one_eq_iff (b : UInt8) {i : Nat} (h : i < 8) :
    ((b >>> i.toUInt8) &&& 1 = 1) ↔ b.toNat.testBit i = true := by
  rw [← UInt8.toNat_inj, UInt8.toNat_and, UInt8.toNat_shiftRight]
  have hShift : i.toUInt8.toNat % 8 = i := by
    rw [Nat.toUInt8, UInt8.toNat_ofNat']
    omega
  rw [hShift, Nat.testBit_eq_decide_div_mod_eq, Nat.shiftRight_eq_div_pow]
  simp [Nat.and_one_is_mod]

theorem bit_eq_testBit (d : Digest) {i : Fin 512} {n k : Nat} (hn : n < 64) (hk : k < 8)
    (hi : i.val = 8 * n + k) : d.bit i = d.bytes[n].toNat.testBit k := by
  have hDiv : i.val / 8 = n := by omega
  have hMod : i.val % 8 = k := by omega
  rw [bit, Bool.eq_iff_iff, decide_eq_true_iff]
  simp only [hDiv, hMod]
  exact shiftRight_and_one_eq_iff _ hk

theorem byte_ext {b b' : UInt8} (h : ∀ i < 8, b.toNat.testBit i = b'.toNat.testBit i) : b = b' := by
  apply UInt8.toNat_inj.mp
  apply Nat.eq_of_testBit_eq
  intro i
  by_cases hi : i < 8
  · exact h i hi
  · have hPow : 2 ^ 8 ≤ 2 ^ i := Nat.pow_le_pow_right (by decide) (by omega)
    rw [Nat.testBit_lt_two_pow (b.toNat_lt.trans_le hPow),
      Nat.testBit_lt_two_pow (b'.toNat_lt.trans_le hPow)]

theorem ext_bits {a b : Digest} (h : ∀ i, a.bit i = b.bit i) : a = b := by
  have hBytes : a.bytes = b.bytes := by
    apply Vector.ext
    intro n hn
    apply byte_ext
    intro i hi
    have hBit := h ⟨8 * n + i, by omega⟩
    rwa [bit_eq_testBit a hn hi rfl, bit_eq_testBit b hn hi rfl] at hBit
  cases a
  cases b
  cases hBytes
  rfl

/-! ## The first difference -/

theorem firstDifference_le (a b : Digest) : a.firstDifference b ≤ 512 := by
  rw [firstDifference]
  exact List.findIdx_le_length.trans_eq List.length_finRange

theorem firstDifference_eq_iff {a b : Digest} {i : Fin 512} :
    a.firstDifference b = i ↔ a.bit i ≠ b.bit i ∧ ∀ j : Fin 512, j < i → a.bit j = b.bit j := by
  have hLength : i.val < (List.finRange 512).length := by
    rw [List.length_finRange]
    exact i.isLt
  rw [firstDifference, List.findIdx_eq hLength]
  simp only [List.getElem_finRange, Fin.cast_mk, Fin.eta, bne_iff_ne, bne_eq_false_iff_eq]
  refine and_congr_right fun _ => ⟨fun h j hj => h j hj, fun h j hj => h ⟨j, _⟩ hj⟩

theorem bit_eq_of_lt_firstDifference {a b : Digest} {i : Fin 512}
    (h : i.val < a.firstDifference b) : a.bit i = b.bit i := by
  have hNot := List.not_of_lt_findIdx h
  simpa using hNot

theorem bit_ne_of_firstDifference_eq {a b : Digest} {i : Fin 512}
    (h : a.firstDifference b = i) : a.bit i ≠ b.bit i := (firstDifference_eq_iff.mp h).1

theorem le_firstDifference_iff {a b : Digest} {depth : Nat} (h : depth ≤ 512) :
    depth ≤ a.firstDifference b ↔ ∀ i : Fin 512, i.val < depth → a.bit i = b.bit i := by
  constructor
  · intro hDepth i hi
    exact bit_eq_of_lt_firstDifference (hi.trans_le hDepth)
  · intro hBits
    generalize hFirst : a.firstDifference b = first
    by_contra hLt
    have hDiffer : first < depth := Nat.lt_of_not_le hLt
    have hNe : a.bit ⟨first, hDiffer.trans_le h⟩ ≠ b.bit ⟨first, hDiffer.trans_le h⟩ :=
      bit_ne_of_firstDifference_eq hFirst
    exact hNe (hBits _ hDiffer)

theorem firstDifference_eq_width_iff {a b : Digest} : a.firstDifference b = 512 ↔ a = b := by
  constructor
  · intro h
    apply ext_bits
    intro i
    apply bit_eq_of_lt_firstDifference
    rw [h]
    exact i.isLt
  · rintro rfl
    have hAll : 512 ≤ a.firstDifference a :=
      (le_firstDifference_iff (Nat.le_refl 512)).mpr fun _ _ => rfl
    exact Nat.le_antisymm (firstDifference_le a a) hAll

theorem firstDifference_self (a : Digest) : a.firstDifference a = 512 :=
  firstDifference_eq_width_iff.mpr rfl

theorem ne_firstDifference_self (a : Digest) {depth : Nat} (h : depth < 512) :
    depth ≠ a.firstDifference a := by
  rw [firstDifference_self]
  exact Nat.ne_of_lt h

theorem firstDifference_lt_iff {a b : Digest} : a.firstDifference b < 512 ↔ a ≠ b := by
  rw [ne_eq, ← firstDifference_eq_width_iff]
  have hLe := firstDifference_le a b
  omega

theorem exists_level {a b : Digest} (h : a ≠ b) :
    ∃ level : Fin 512, level.val = a.firstDifference b := by
  have hLt := firstDifference_lt_iff.mpr h
  generalize a.firstDifference b = first at hLt ⊢
  exact ⟨⟨first, hLt⟩, rfl⟩

theorem firstDifference_eq_of {a b : Digest} {i : Fin 512} (h : i.val ≤ a.firstDifference b)
    (hBit : a.bit i ≠ b.bit i) : a.firstDifference b = i := by
  by_contra hNe
  exact hBit (bit_eq_of_lt_firstDifference (by omega))

theorem lt_firstDifference_of {a b : Digest} {i : Fin 512} (h : i.val ≤ a.firstDifference b)
    (hBit : a.bit i = b.bit i) : i.val < a.firstDifference b := by
  by_contra hNot
  exact bit_ne_of_firstDifference_eq (i := i) (by omega) hBit

end SignedDirectory.Digest
