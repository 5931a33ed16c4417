import Mathlib.Algebra.Group.Nat.Defs
import SignedDirectory.Proofs.Digest.Bits

/-!
# Addressing bits

Setting a bit is seen at its own index and at no other (`bit_setBit`), and the depth down to which digests
agree is that of an ultrametric: of the three depths between three digests the two smallest are equal
(`addressing_consistent`).
-/

namespace SignedDirectory.Digest

/-! ## Setting a bit -/

theorem toNat_mask {k : Nat} (hk : k < 8) : ((1 : UInt8) <<< k.toUInt8).toNat = 2 ^ k := by
  have hShift : k.toUInt8.toNat % 8 = k := by
    rw [Nat.toUInt8, UInt8.toNat_ofNat']
    omega
  have hPow : 2 ^ k < 2 ^ 8 := Nat.pow_lt_pow_right (by decide) hk
  rw [UInt8.toNat_shiftLeft, hShift, UInt8.toNat_one, Nat.one_shiftLeft, Nat.mod_eq_of_lt hPow]

theorem testBit_clear (b : UInt8) {k i : Nat} (hk : k < 8) (hi : i < 8) :
    (b &&& ~~~((1 : UInt8) <<< k.toUInt8)).toNat.testBit i =
      if i = k then false else b.toNat.testBit i := by
  have hPow : 2 ^ k < 2 ^ 8 := Nat.pow_lt_pow_right (by decide) hk
  have hNot : UInt8.size - 1 - 2 ^ k = 2 ^ 8 - (2 ^ k + 1) := by
    change 256 - 1 - 2 ^ k = 256 - (2 ^ k + 1)
    omega
  rw [UInt8.toNat_and, UInt8.toNat_not, toNat_mask hk, Nat.testBit_and, hNot,
    Nat.testBit_two_pow_sub_succ hPow, Nat.testBit_two_pow]
  rcases eq_or_ne i k with rfl | hIndex
  · simp
  · simp [hIndex, hi, hIndex.symm]

theorem testBit_raise (b : UInt8) {k i : Nat} (hk : k < 8) :
    (b ||| (1 : UInt8) <<< k.toUInt8).toNat.testBit i =
      if i = k then true else b.toNat.testBit i := by
  rw [UInt8.toNat_or, toNat_mask hk, Nat.testBit_or, Nat.testBit_two_pow]
  rcases eq_or_ne i k with rfl | hIndex
  · simp
  · simp [hIndex, hIndex.symm]

theorem and_one_eq_zero_iff (value : UInt8) : value &&& 1 = 0 ↔ value.toNat.testBit 0 = false := by
  rw [← UInt8.toNat_inj, UInt8.toNat_and, Nat.testBit_zero]
  simp [Nat.and_one_is_mod]

theorem testBit_assign (b value : UInt8) {k i : Nat} (hk : k < 8) (hi : i < 8) :
    (if value &&& 1 = 0 then b &&& ~~~((1 : UInt8) <<< k.toUInt8)
      else b ||| (1 : UInt8) <<< k.toUInt8).toNat.testBit i =
      if i = k then value.toNat.testBit 0 else b.toNat.testBit i := by
  split
  · rename_i hValue
    rw [testBit_clear b hk hi, (and_one_eq_zero_iff value).mp hValue]
  · rename_i hValue
    rw [and_one_eq_zero_iff, Bool.not_eq_false] at hValue
    rw [testBit_raise b hk, hValue]

/-- Setting a bit changes that bit, to the least significant bit of the value, and no other. -/
theorem bit_setBit (d : Digest) (i j : Fin 512) (value : UInt8) :
    (d.setBit i value).bit j = if j = i then value.toNat.testBit 0 else d.bit j := by
  have hi : i.val % 8 < 8 := Nat.mod_lt _ (by decide)
  have hj : j.val % 8 < 8 := Nat.mod_lt _ (by decide)
  have hByte : j.val / 8 < 64 := by omega
  have hIndex : j.val = 8 * (j.val / 8) + j.val % 8 := by omega
  rw [bit_eq_testBit _ hByte hj hIndex, bit_eq_testBit d hByte hj hIndex]
  simp only [setBit, Vector.getElem_set]
  split
  · -- Both bits are in one byte, so the index is the same if the place in that byte is.
    rename_i hSame
    have hPlace : j = i ↔ j.val % 8 = i.val % 8 := by
      rw [Fin.ext_iff]
      omega
    simp only [hSame, hPlace]
    exact testBit_assign _ value hi hj
  · rename_i hOther
    have hNe : j ≠ i := by
      rintro rfl
      exact hOther rfl
    rw [if_neg hNe]

/-! ## The depth of agreement -/

theorem eq_iff_bits {a b : Digest} : a = b ↔ ∀ i, a.bit i = b.bit i :=
  ⟨fun h i => congrArg (bit · i) h, ext_bits⟩

theorem firstDifference_comm (a b : Digest) : a.firstDifference b = b.firstDifference a := by
  rw [firstDifference, firstDifference]
  congr 1
  funext i
  exact bne_comm

theorem min_firstDifference_le (a b c : Digest) :
    min (a.firstDifference b) (b.firstDifference c) ≤ a.firstDifference c := by
  have hBound := (Nat.min_le_left _ (b.firstDifference c)).trans (firstDifference_le a b)
  apply (le_firstDifference_iff hBound).mpr
  intro i hi
  obtain ⟨hLeft, hRight⟩ := Nat.lt_min.mp hi
  calc a.bit i
    _ = b.bit i := bit_eq_of_lt_firstDifference hLeft
    _ = c.bit i := bit_eq_of_lt_firstDifference hRight

theorem firstDifference_eq_of_lt {a b c : Digest}
    (h : a.firstDifference b < b.firstDifference c) : a.firstDifference c = a.firstDifference b := by
  have hParted : a.firstDifference b < 512 := h.trans_le (firstDifference_le b c)
  obtain ⟨i, hi⟩ := exists_level (firstDifference_lt_iff.mp hParted)
  rw [← hi] at h ⊢
  apply firstDifference_eq_of
  · have hMin := min_firstDifference_le a b c
    rwa [← hi, Nat.min_eq_left h.le] at hMin
  · rw [← bit_eq_of_lt_firstDifference h]
    exact bit_ne_of_firstDifference_eq hi.symm

theorem firstDifference_eq_min {a b c : Digest} (h : a.firstDifference b ≠ b.firstDifference c) :
    a.firstDifference c = min (a.firstDifference b) (b.firstDifference c) := by
  rcases Nat.lt_or_gt_of_ne h with hLt | hGt
  · rw [Nat.min_eq_left hLt.le]
    exact firstDifference_eq_of_lt hLt
  · rw [Nat.min_eq_right hGt.le, firstDifference_comm a c, firstDifference_comm b c]
    apply firstDifference_eq_of_lt
    rwa [firstDifference_comm c b, firstDifference_comm b a]

theorem firstDifference_eq_iff_least {a b : Digest} {n : Nat} :
    a.firstDifference b = n ↔ (n = 512 ∧ a = b) ∨
      ∃ i : Fin 512, i.val = n ∧ a.bit i ≠ b.bit i ∧ ∀ j < i, a.bit j = b.bit j := by
  constructor
  · rintro rfl
    by_cases hSame : a = b
    · exact .inl ⟨firstDifference_eq_width_iff.mpr hSame, hSame⟩
    · obtain ⟨i, hi⟩ := exists_level hSame
      exact .inr ⟨i, hi, firstDifference_eq_iff.mp hi.symm⟩
  · rintro (⟨rfl, hSame⟩ | ⟨i, rfl, hLeast⟩)
    · exact firstDifference_eq_width_iff.mpr hSame
    · exact firstDifference_eq_iff.mpr hLeast

/-- Bits that are set are the bits that are read, digests are their bits, and the first difference is the
least index at which the bits differ, or 512 for equal digests. It is symmetric, and of the first differences
between three digests the least occurs twice. -/
theorem addressing_consistent (a b c : Digest) :
    (∀ (i j : Fin 512) (value : UInt8), ((a.setBit i value).bit j).toNat =
      if j = i then value.toNat % 2 else (a.bit j).toNat) ∧
    (a = b ↔ ∀ i, a.bit i = b.bit i) ∧
    (∀ n, a.firstDifference b = n ↔ (n = 512 ∧ a = b) ∨
      ∃ i : Fin 512, i.val = n ∧ a.bit i ≠ b.bit i ∧ ∀ j < i, a.bit j = b.bit j) ∧
    a.firstDifference b = b.firstDifference a ∧
    min (a.firstDifference b) (b.firstDifference c) ≤ a.firstDifference c ∧
    (a.firstDifference b ≠ b.firstDifference c →
      a.firstDifference c = min (a.firstDifference b) (b.firstDifference c)) := by
  refine ⟨fun i j value => ?_, eq_iff_bits, fun _ => firstDifference_eq_iff_least,
    firstDifference_comm a b, min_firstDifference_le a b c, firstDifference_eq_min⟩
  rw [bit_setBit]
  split
  · rw [Nat.toNat_testBit, Nat.pow_zero, Nat.div_one]
  · rfl

theorem firstDifference_of_parted : ∃ a b c : Digest, a.firstDifference b = 13 ∧
    b.firstDifference c = 2 ∧ a.firstDifference c = 2 := by
  let b := empty.setBit 13 1
  let c := b.setBit 2 1
  obtain ⟨-, -, -, -, -, hMin⟩ := addressing_consistent empty b c
  have hLeft : empty.firstDifference b = 13 := by decide +kernel
  have hRight : b.firstDifference c = 2 := by decide +kernel
  rw [hLeft, hRight] at hMin
  exact ⟨empty, b, c, hLeft, hRight, hMin (by decide)⟩

end SignedDirectory.Digest
