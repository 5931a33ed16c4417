import SignedDirectory.Proofs.Text.ByteOrder
import SignedDirectory.Proofs.Token.Kinds

/-!
# Tokens in the order of their byte strings

Byte strings, their bits and their symbols are in the same lexicographic order, and so are their tokens, bare
(`encode_lt_encode_iff`) or in one wrapper (`wrap_lt_wrap_iff`). The first difference of two byte strings is a
bit that both have at the same place of the same symbol, so that the groups of five keep it. The zeros behind a
shorter byte string count for no more than the bits that a longer one has there, and since they are fewer than
eight they do not reach its end.
-/

namespace SignedDirectory

namespace Token

/-! ## Lists in lexicographic order -/

section

variable {α : Type} [LT α] {u v r s : List α}

theorem append_lt_append_iff (hLength : u.length = v.length) :
    u ++ r < v ++ s ↔ u < v ∨ u = v ∧ r < s := by
  induction u generalizing v with
  | nil =>
    obtain rfl := List.eq_nil_of_length_eq_zero hLength.symm
    simp
  | cons a u ih =>
    obtain ⟨b, v, rfl⟩ := List.exists_cons_of_length_eq_add_one hLength.symm
    rw [List.cons_append, List.cons_append, List.cons_lt_cons_iff, List.cons_lt_cons_iff,
      ih (Nat.succ.inj hLength), List.cons.injEq, and_or_left, ← and_assoc, or_assoc]

/-- An element that is less than all those of the greater list changes nothing behind the lesser one. -/
theorem append_singleton_lt {a : α} (h : u < v) (hLess : ∀ b ∈ v, a < b) : u ++ [a] < v ++ s := by
  induction (h : List.Lex (· < ·) u v) with
  | nil => exact .rel (hLess _ List.mem_cons_self)
  | cons _ ih => exact .cons (ih fun b hb => hLess b (List.mem_cons_of_mem _ hb))
  | rel hLt => exact .rel hLt

end

/-! ## Bits -/

theorem ofBits_lt_ofBits_iff {u v : List Bool} (hLength : u.length = v.length) :
    ofBits u < ofBits v ↔ u < v := by
  induction u generalizing v with
  | nil =>
    obtain rfl := List.eq_nil_of_length_eq_zero hLength.symm
    simp
  | cons a u ih =>
    obtain ⟨b, v, rfl⟩ := List.exists_cons_of_length_eq_add_one hLength.symm
    have hRest : u.length = v.length := Nat.succ.inj hLength
    have hu := ofBits_lt u
    have hv := ofBits_lt v
    rw [hRest] at hu
    rw [ofBits_cons, ofBits_cons, List.cons_lt_cons_iff, ← ih hRest, hRest]
    -- The bits behind a difference do not make up for it.
    cases a <;> cases b <;> simp [Bool.lt_iff] <;> omega

theorem bits_lt_bits {width m n : Nat} (h : m < n) (hn : n < 2 ^ width) : bits width m < bits width n := by
  rw [← ofBits_lt_ofBits_iff (by rw [length_bits, length_bits]), ofBits_bits, ofBits_bits,
    Nat.mod_eq_of_lt (h.trans hn), Nat.mod_eq_of_lt hn]
  exact h

theorem zeros_lt {k : Nat} {bs : List Bool} (h : k < bs.length) : List.replicate k false < bs := by
  induction k generalizing bs with
  | zero =>
    obtain ⟨b, bs, rfl⟩ := List.exists_cons_of_length_pos h
    exact List.nil_lt_cons b bs
  | succ k ih =>
    obtain ⟨b, bs, rfl⟩ := List.exists_cons_of_length_pos (Nat.zero_lt_of_lt h)
    rw [List.replicate_succ, List.cons_lt_cons_iff]
    cases b with
    | false => exact .inr ⟨rfl, ih (Nat.lt_of_succ_lt_succ h)⟩
    | true => exact .inl (by decide)

/-- Filling up the lesser byte string with few zeros, and the greater one with anything, keeps the order. -/
theorem padded_lt {a b : Bytes} (h : a < b) {k : Nat} (hk : k < 8) (left : List Bool) :
    bitString a ++ List.replicate k false < bitString b ++ left := by
  induction (h : List.Lex (· < ·) a b) with
  | nil =>
    apply zeros_lt
    rw [bitString_cons, List.length_append, List.length_append, length_bits]
    omega
  | cons _ ih =>
    rw [bitString_cons, bitString_cons, List.append_assoc, List.append_assoc]
    exact List.append_left_lt ih
  | @rel byte bytes byte' bytes' hLt =>
    rw [bitString_cons, bitString_cons, List.append_assoc, List.append_assoc,
      append_lt_append_iff (by rw [length_bits, length_bits])]
    exact .inl (bits_lt_bits hLt byte'.toNat_lt)

/-! ## Symbols -/

theorem symbol_lt_symbol {m n : Nat} (h : m < n) (hn : n < 32) : symbol m < symbol n := by
  have hAll : ∀ n < 32, ∀ m < n, symbol m < symbol n := by decide
  exact hAll n hn m h

/-- The first five of some bits in full groups of five are one symbol. -/
theorem exists_first_group {bs : List Bool} (h : 5 ∣ bs.length) (hNonempty : bs ≠ []) :
    ∃ group rest, group.length = 5 ∧ bs = group ++ rest ∧
      symbols bs = symbol (ofBits group) :: symbols rest := by
  rcases bs with _ | ⟨a, _ | ⟨b, _ | ⟨c, _ | ⟨d, _ | ⟨e, rest⟩⟩⟩⟩⟩
  · exact absurd rfl hNonempty
  iterate 4 exact absurd h (by simp)
  · exact ⟨[a, b, c, d, e], rest, rfl, rfl, rfl⟩

theorem symbols_lt_symbols {bs bs' : List Bool} (h : 5 ∣ bs.length) (h' : 5 ∣ bs'.length)
    (hLt : bs < bs') : symbols bs < symbols bs' := by
  induction hn : bs.length using Nat.strongRecOn generalizing bs bs' with
  | ind n ih =>
    subst hn
    have hNonempty' : bs' ≠ [] := by
      rintro rfl
      exact List.not_lt_nil bs hLt
    obtain ⟨group', rest', hGroup', rfl, hSymbols'⟩ := exists_first_group h' hNonempty'
    rw [hSymbols']
    rcases eq_or_ne bs [] with rfl | hNonempty
    · exact List.nil_lt_cons _ _
    · obtain ⟨group, rest, hGroup, rfl, hSymbols⟩ := exists_first_group h hNonempty
      have hLength : group.length = group'.length := hGroup.trans hGroup'.symm
      rw [hSymbols, List.cons_lt_cons_iff]
      rw [List.length_append, hGroup, Nat.dvd_add_right (Nat.dvd_refl 5)] at h
      rw [List.length_append, hGroup', Nat.dvd_add_right (Nat.dvd_refl 5)] at h'
      -- Either the groups differ, or they are one symbol and the difference comes behind them.
      rcases (append_lt_append_iff hLength).mp hLt with hGroupLt | ⟨rfl, hRestLt⟩
      · have hSmall : ofBits group' < 32 := by simpa [hGroup'] using ofBits_lt group'
        exact .inl (symbol_lt_symbol ((ofBits_lt_ofBits_iff hLength).mpr hGroupLt) hSmall)
      · have hShorter : rest.length < (group ++ rest).length := by
          rw [List.length_append]
          omega
        exact .inr ⟨rfl, ih _ hShorter h h' hRestLt rfl⟩

theorem encodeChars_lt_encodeChars {a b : Bytes} (h : a < b) : encodeChars a < encodeChars b := by
  obtain ⟨k, hk, hDvd⟩ := exists_padding (bitString a).length
  obtain ⟨k', hk', hDvd'⟩ := exists_padding (bitString b).length
  calc encodeChars a
    _ = symbols (bitString a ++ List.replicate k false) := (symbols_append_zeros _ hk hDvd).symm
    _ < symbols (bitString b ++ List.replicate k' false) := by
      apply symbols_lt_symbols
      · rwa [List.length_append, List.length_replicate]
      · rwa [List.length_append, List.length_replicate]
      · exact padded_lt h (by omega) _
    _ = encodeChars b := symbols_append_zeros _ hk' hDvd'

/-! ## Texts -/

/-- Texts for byte strings that go up with them are in their order. -/
theorem text_lt_iff (text : Bytes → String) (hMono : ∀ {a b}, a < b → text a < text b) (a b : Bytes) :
    text a < text b ↔ a < b := by
  refine ⟨fun h => ?_, hMono⟩
  rcases Decidable.em (a < b) with hLt | hNot
  · exact hLt
  · rcases List.le_iff_lt_or_eq.mp (List.not_lt.mp hNot) with hGt | rfl
    · exact absurd h (String.lt_asymm (hMono hGt))
    · exact absurd h (String.lt_irrefl _)

theorem encode_lt_encode_iff (a b : Bytes) : encode a < encode b ↔ a < b := by
  apply text_lt_iff encode
  intro a b h
  rw [String.lt_iff, encode, encode, String.toList_ofList, String.toList_ofList]
  exact encodeChars_lt_encodeChars h

theorem wrap_lt_wrap_iff (a b : Bytes) (tag : String) : wrap a tag < wrap b tag ↔ a < b := by
  apply text_lt_iff (wrap · tag)
  intro a b h
  rw [String.lt_iff, toList_wrap, toList_wrap]
  apply List.append_left_lt
  apply List.Lex.cons
  apply append_singleton_lt (encodeChars_lt_encodeChars h)
  -- The closing parenthesis is less than every symbol, so a shorter token stays the lesser one.
  have hClose : alphabet.all (')' < ·) = true := by decide
  intro ch hch
  have hSymbol : ch ∈ alphabet := inAlphabet_encode b ch (by rwa [encode, String.toList_ofList])
  exact of_decide_eq_true (List.all_eq_true.mp hClose ch hSymbol)

end Token

theorem Bytes.compare_eq_lt_iff (a b : Bytes) : compare a b = .lt ↔ a < b := by
  induction a generalizing b with
  | nil => cases b <;> simp
  | cons byte a ih =>
    cases b with
    | nil => simp
    | cons byte' b =>
      rw [List.compare_cons_cons, Ordering.then_eq_lt, ih, List.cons_lt_cons_iff,
        Std.LawfulEqOrd.compare_eq_iff_eq]
      exact or_congr_left compareOfLessAndEq_eq_lt

theorem PublicKey.compare_toToken (key key' : PublicKey) :
    compare key.toToken key'.toToken = compare key key' := by
  have hMono {key key' : PublicKey} (h : compare key key' = .lt) :
      compare key.toToken key'.toToken = .lt := by
    apply compareOfLessAndEq_eq_lt.mpr
    rw [toToken, toToken, Token.wrap_lt_wrap_iff, ← Bytes.compare_eq_lt_iff,
      ← Vector.compare_eq_compare_toList]
    exact h
  cases h : compare key key' with
  | lt => exact hMono h
  | eq =>
    obtain rfl := Std.LawfulEqCmp.eq_of_compare h
    exact Std.ReflCmp.compare_self
  | gt => exact Std.OrientedCmp.gt_of_lt (hMono (Std.OrientedCmp.lt_of_gt h))

end SignedDirectory
