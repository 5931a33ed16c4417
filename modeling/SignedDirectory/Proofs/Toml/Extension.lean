import Mathlib.Data.List.Basic
import SignedDirectory.Proofs.Toml.Steps

/-!
# What comes behind does not change what was read

Every reader stops at the end of a line at the latest, or knows from a closing quote or bracket where to
stop. So a reader that succeeds on a text succeeds on the text with a further line behind it (`Extends`),
finds the same there, and leaves that line. The reader of documents therefore passes over a comment in
the last line (`passesOverComments_ofString?`).
-/

namespace SignedDirectory.Toml

/-- A reader finds the same if a line break follows, and whatever comes then. -/
def Extends {α : Type} (read : List Char → Option (α × List Char)) : Prop :=
  ∀ chars a rest more, read chars = some (a, rest) →
    read (chars ++ '\n' :: more) = some (a, rest ++ '\n' :: more)

/-! ## Runs of characters -/

theorem takeWhile_append_line {p : Char → Bool} (h : p '\n' = false) (chars more : List Char) :
    (chars ++ '\n' :: more).takeWhile p = chars.takeWhile p := by
  induction chars with
  | nil => simp [h]
  | cons ch chars ih =>
    by_cases hCh : p ch = true
    · simp [hCh, ih]
    · simp [hCh]

theorem dropWhile_append_line {p : Char → Bool} (h : p '\n' = false) (chars more : List Char) :
    (chars ++ '\n' :: more).dropWhile p = chars.dropWhile p ++ '\n' :: more := by
  induction chars with
  | nil => simp [h]
  | cons ch chars ih =>
    by_cases hCh : p ch = true
    · simp [hCh, ih]
    · simp [hCh]

theorem skipBlanks_append_line (chars more : List Char) :
    skipBlanks (chars ++ '\n' :: more) = skipBlanks chars ++ '\n' :: more :=
  dropWhile_append_line rfl chars more

theorem head?_append_line_ne {ch : Char} {chars : List Char} (more : List Char)
    (h : chars.head? ≠ some ch) (hLine : ch ≠ '\n') : (chars ++ '\n' :: more).head? ≠ some ch := by
  cases chars with
  | nil => simpa using hLine.symm
  | cons ch' chars => exact h

theorem NoQuotes.append_line {quote : Char} {chars : List Char} (h : NoQuotes quote chars)
    (hQuote : quote ≠ '\n') (more : List Char) : NoQuotes quote (chars ++ '\n' :: more) := by
  intro rest hText
  match chars with
  | [] => exact hQuote (List.cons.inj hText).1.symm
  | [ch] =>
    have hTail := (List.cons.inj hText).2
    exact hQuote (List.cons.inj hTail).1.symm
  | ch :: ch' :: chars =>
    simp only [List.cons_append, List.cons.injEq] at hText
    exact h chars (by rw [hText.1, hText.2.1])

/-! ## Strings -/

theorem extends_readLiteral : Extends readLiteral := by
  intro chars s rest more h
  fun_induction readLiteral chars generalizing s with
  | case1 => cases h
  | case2 tail =>
    cases h
    rfl
  | case3 ch tail hQuote hPlain ih =>
    obtain ⟨s, hRead, rfl⟩ := consChar_eq_some_iff.mp h
    rw [List.cons_append, readLiteral, if_pos hPlain, ih s hRead]
    · rfl
    · exact hQuote
  | case4 ch tail hQuote hPlain => cases h

theorem extends_readBasic : Extends readBasic := by
  intro chars s rest more h
  fun_induction readBasic chars generalizing s with
  | case1 => cases h
  | case2 tail =>
    cases h
    rfl
  | case3 a b c d tail ih =>
    obtain ⟨ch, hCode, h⟩ := Option.bind_eq_some_iff.mp h
    obtain ⟨s, hRead, rfl⟩ := consChar_eq_some_iff.mp h
    simp [readBasic, hCode, ih s hRead, consChar]
  | case4 a b c d e f g g' tail ih =>
    obtain ⟨ch, hCode, h⟩ := Option.bind_eq_some_iff.mp h
    obtain ⟨s, hRead, rfl⟩ := consChar_eq_some_iff.mp h
    simp [readBasic, hCode, ih s hRead, consChar]
  | case5 ch tail _ _ ih =>
    obtain ⟨ch', hEscape, h⟩ := Option.bind_eq_some_iff.mp h
    obtain ⟨s, hRead, rfl⟩ := consChar_eq_some_iff.mp h
    obtain ⟨hLower, hUpper⟩ := ne_of_escape? hEscape
    simp [readBasic, hEscape, ih s hRead, consChar, hLower, hUpper]
  | case6 ch tail _ _ _ hEscape hPlain ih =>
    obtain ⟨s, hRead, rfl⟩ := consChar_eq_some_iff.mp h
    have hBackslash := ne_backslash_of_rest hEscape (by rintro rfl; cases hRead)
    simp [readBasic, hPlain, ih s hRead, consChar, hBackslash]
  | case7 => cases h

theorem extends_readLongLiteral : Extends readLongLiteral := by
  intro chars s rest more h
  fun_induction readLongLiteral chars generalizing s with
  | case1 => cases h
  | case2 tail =>
    cases h
    rfl
  | case3 tail hFifth =>
    cases h
    have hFifth' := head?_append_line_ne more (head?_ne_some_iff.mpr hFifth) (by decide)
    rw [List.cons_append, List.cons_append, List.cons_append, List.cons_append, readLongLiteral]
    exact head?_ne_some_iff.mp hFifth'
  | case4 tail _ hFourth =>
    cases h
    have hFourth' := head?_append_line_ne more (head?_ne_some_iff.mpr hFourth) (by decide)
    rw [List.cons_append, List.cons_append, List.cons_append, readLongLiteral]
    · intro tail'
      exact head?_ne_some_iff.mp hFourth' _
    · exact head?_ne_some_iff.mp hFourth'
  | case5 tail ih =>
    obtain ⟨s, hRead, rfl⟩ := consChar_eq_some_iff.mp h
    simp [readLongLiteral, ih s hRead, consChar]
  | case6 ch tail _ _ hQuotes _ hPlain ih =>
    obtain ⟨s, hRead, rfl⟩ := consChar_eq_some_iff.mp h
    have hReturn := ne_return_of_plain hPlain
    have hQuotes' : ch = '\'' → NoQuotes '\'' (tail ++ '\n' :: more) := by
      intro hCh
      exact NoQuotes.append_line (fun tail' => hQuotes tail' hCh) (by decide) more
    rw [List.cons_append, readLongLiteral, if_pos hPlain, ih s hRead]
    · rfl
    · exact fun tail' hCh => hQuotes' hCh _
    · exact fun tail' hCh => hQuotes' hCh _
    · exact fun tail' hCh => hQuotes' hCh _
    · exact fun tail' hCh => absurd hCh hReturn
  | case7 => cases h

theorem endsLine_append_line {chars : List Char} (h : endsLine chars = true) (more : List Char) :
    endsLine (chars ++ '\n' :: more) = true := by
  rw [endsLine, skipBlanks_append_line]
  rw [endsLine] at h
  split at h
  · rename_i hLine
    rw [hLine]
    rfl
  · rename_i hLine
    rw [hLine]
    rfl
  · cases h

theorem extends_readLongBasic (isTrimming : Bool) : Extends (readLongBasic isTrimming) := by
  intro chars s rest more h
  fun_induction readLongBasic isTrimming chars generalizing s with
  | case1 => cases h
  | case2 isTrimming tail =>
    cases h
    rfl
  | case3 isTrimming tail hFifth =>
    cases h
    have hFifth' := head?_append_line_ne more (head?_ne_some_iff.mpr hFifth) (by decide)
    rw [List.cons_append, List.cons_append, List.cons_append, List.cons_append, readLongBasic]
    exact head?_ne_some_iff.mp hFifth'
  | case4 isTrimming tail _ hFourth =>
    cases h
    have hFourth' := head?_append_line_ne more (head?_ne_some_iff.mpr hFourth) (by decide)
    rw [List.cons_append, List.cons_append, List.cons_append, readLongBasic]
    · intro tail'
      exact head?_ne_some_iff.mp hFourth' _
    · exact head?_ne_some_iff.mp hFourth'
  | case5 isTrimming a b c d tail ih =>
    obtain ⟨ch, hCode, h⟩ := Option.bind_eq_some_iff.mp h
    obtain ⟨s, hRead, rfl⟩ := consChar_eq_some_iff.mp h
    simp [readLongBasic, hCode, ih s hRead, consChar]
  | case6 isTrimming a b c d e f g g' tail ih =>
    obtain ⟨ch, hCode, h⟩ := Option.bind_eq_some_iff.mp h
    obtain ⟨s, hRead, rfl⟩ := consChar_eq_some_iff.mp h
    simp [readLongBasic, hCode, ih s hRead, consChar]
  | case7 isTrimming ch tail _ _ hBreak hEnds ih =>
    have hLower : ch ≠ 'u' := by
      rintro rfl
      revert hBreak
      decide
    have hUpper : ch ≠ 'U' := by
      rintro rfl
      revert hBreak
      decide
    have hEnds' := endsLine_append_line hEnds more
    rw [List.cons_append] at hEnds'
    simp [readLongBasic, hBreak, hEnds', ih s h, hLower, hUpper]
  | case8 => cases h
  | case9 isTrimming ch tail _ _ hBreak ih =>
    obtain ⟨ch', hEscape, h⟩ := Option.bind_eq_some_iff.mp h
    obtain ⟨s, hRead, rfl⟩ := consChar_eq_some_iff.mp h
    obtain ⟨hLower, hUpper⟩ := ne_of_escape? hEscape
    simp [readLongBasic, hBreak, hEscape, ih s hRead, consChar, hLower, hUpper]
  | case10 tail ih => simp [readLongBasic, ih s h]
  | case11 isTrimming tail hKeep ih =>
    obtain ⟨s, hRead, rfl⟩ := consChar_eq_some_iff.mp h
    simp [readLongBasic, hKeep, ih s hRead, consChar]
  | case12 isTrimming ch tail _ _ _ _ _ _ _ hTrim ih =>
    have hSpecial : ch ≠ '"' ∧ ch ≠ '\\' ∧ ch ≠ '\r' := by
      refine ⟨?_, ?_, ?_⟩ <;> rintro rfl <;> simp [isBlank] at hTrim
    obtain ⟨hQuote, hBackslash, hReturn⟩ := hSpecial
    rw [List.cons_append, readLongBasic_char (fun hCh => absurd hCh hQuote) hBackslash hReturn,
      if_pos hTrim, ih s h]
  | case13 isTrimming ch tail _ _ hQuotes _ _ hEscape _ hKeep hPlain ih =>
    obtain ⟨s, hRead, rfl⟩ := consChar_eq_some_iff.mp h
    have hReturn := ne_return_of_plain hPlain
    have hBackslash := ne_backslash_of_rest hEscape (by rintro rfl; cases hRead)
    have hQuotes' : ch = '"' → NoQuotes '"' (tail ++ '\n' :: more) := by
      intro hCh
      exact NoQuotes.append_line (fun tail' => hQuotes tail' hCh) (by decide) more
    rw [List.cons_append, readLongBasic_char hQuotes' hBackslash hReturn, if_neg hKeep,
      if_pos hPlain, ih s hRead]
    rfl
  | case14 => cases h

theorem skipLineEnd_append_line {chars : List Char} (hNil : chars ≠ []) (hReturn : chars ≠ ['\r'])
    (more : List Char) :
    skipLineEnd (chars ++ '\n' :: more) = skipLineEnd chars ++ '\n' :: more := by
  match chars with
  | [] => exact absurd rfl hNil
  | [ch] =>
    have hCh : ch ≠ '\r' := fun hCh => hReturn (by rw [hCh])
    by_cases hLine : ch = '\n'
    · rw [hLine]
      rfl
    · simp [skipLineEnd, hCh, hLine]
  | ch :: ch' :: chars =>
    by_cases hLine : ch = '\n'
    · rw [hLine]
      rfl
    · by_cases hPair : ch = '\r' ∧ ch' = '\n'
      · rw [hPair.1, hPair.2]
        rfl
      · simp [skipLineEnd, hLine]
        split
        · simp_all
        · simp_all
        · simp_all

theorem extends_long_basic : Extends fun chars => readLongBasic false (skipLineEnd chars) := by
  intro chars s rest more h
  have hNil : chars ≠ [] := by
    rintro rfl
    cases h
  have hReturn : chars ≠ ['\r'] := by
    rintro rfl
    cases h
  dsimp only
  rw [skipLineEnd_append_line hNil hReturn]
  exact extends_readLongBasic false _ _ _ more h

theorem extends_long_literal : Extends fun chars => readLongLiteral (skipLineEnd chars) := by
  intro chars s rest more h
  have hNil : chars ≠ [] := by
    rintro rfl
    cases h
  have hReturn : chars ≠ ['\r'] := by
    rintro rfl
    cases h
  dsimp only
  rw [skipLineEnd_append_line hNil hReturn]
  exact extends_readLongLiteral _ _ _ more h

/-! ## Keys -/

theorem extends_readName : Extends readName := by
  intro chars name rest more h
  rw [readName.eq_def] at h
  split at h
  · obtain ⟨⟨s, rest⟩, hRead, hEq⟩ := Option.map_eq_some_iff.mp h
    cases hEq
    simp [readName, extends_readBasic _ _ _ more hRead]
  · obtain ⟨⟨s, rest⟩, hRead, hEq⟩ := Option.map_eq_some_iff.mp h
    cases hEq
    simp [readName, extends_readLiteral _ _ _ more hRead]
  · rename_i hDouble hSingle
    dsimp only at h
    split at h
    · cases h
    · rename_i hName
      cases h
      have hDouble' := head?_append_line_ne more (head?_ne_some_iff.mpr hDouble) (by decide)
      have hSingle' := head?_append_line_ne more (head?_ne_some_iff.mpr hSingle) (by decide)
      rw [readName]
      · rw [takeWhile_append_line rfl, dropWhile_append_line rfl, if_neg hName]
      · exact head?_ne_some_iff.mp hDouble'
      · exact head?_ne_some_iff.mp hSingle'

theorem extends_readKey (limit : Nat) : Extends (readKey limit) := by
  intro chars key rest more h
  induction limit generalizing chars key with
  | zero => cases h
  | succ limit ih =>
    rw [readKey_eq_some_iff] at h ⊢
    cases h with
    | last hName hHead =>
      have hName' := extends_readName _ _ _ more hName
      rw [← skipBlanks_append_line] at hName' ⊢
      refine .last hName' ?_
      rw [skipBlanks_append_line]
      exact head?_append_line_ne more hHead (by decide)
    | dot hName hDot hRest =>
      have hName' := extends_readName _ _ _ more hName
      rw [← skipBlanks_append_line] at hName'
      refine .dot hName' ?_ (ih _ _ hRest)
      rw [skipBlanks_append_line, hDot]
      rfl

/-! ## Values -/

theorem splitBare_append_line (chars more : List Char) : splitBare (chars ++ '\n' :: more) =
    ((splitBare chars).1, (splitBare chars).2 ++ '\n' :: more) := by
  have hBare := takeWhile_append_line (p := isBareChar) rfl chars more
  have hAfter := dropWhile_append_line (p := isBareChar) rfl chars more
  by_cases hParts : ∃ ch rest, Parts chars ch rest
  · obtain ⟨ch, rest, h⟩ := hParts
    have h' : Parts (chars ++ '\n' :: more) ch (rest ++ '\n' :: more) :=
      ⟨by rw [hAfter, h.rest_eq]; rfl, by rw [hBare, h.isDate], h.isDigit⟩
    rw [h.splitBare_eq, h'.splitBare_eq, hBare, ← List.cons_append, takeWhile_append_line rfl,
      dropWhile_append_line rfl]
  · simp only [not_exists] at hParts
    have hParts' : ∀ ch rest, ¬Parts (chars ++ '\n' :: more) ch rest := by
      intro ch rest h'
      have hRest := h'.rest_eq
      rw [hAfter] at hRest
      match hChars : chars.dropWhile isBareChar with
      | [] =>
        rw [hChars] at hRest
        cases hRest
      | [ch'] =>
        rw [hChars] at hRest
        cases hRest
        exact absurd h'.isDigit (by decide)
      | ch' :: ch'' :: rest' =>
        rw [hChars] at hRest
        cases hRest
        exact hParts ch rest' ⟨hChars, hBare ▸ h'.isDate, h'.isDigit⟩
    rw [splitBare_eq hParts, splitBare_eq hParts', hBare, hAfter]

theorem skipFiller_append_line {inComment : Bool} {chars : List Char}
    (h : (skipFiller inComment chars).head? ≠ some '\r') (more : List Char) :
    skipFiller inComment (chars ++ '\n' :: more) =
      if skipFiller inComment chars = [] then skipFiller false more
      else skipFiller inComment chars ++ '\n' :: more := by
  fun_induction skipFiller inComment chars with
  | case1 => simp [skipFiller]
  | case2 inComment tail ih => simp [skipFiller, ih h]
  | case3 inComment tail _ ih => simp [skipFiller, ih h]
  | case4 ch tail _ hLine hPlain ih =>
    have hReturn := ne_return_of_plain (.inl hPlain)
    simp [skipFiller, hLine, hReturn, hPlain, ih h]
  | case5 ch tail _ hLine hPlain =>
    have hReturn : ch ≠ '\r' := by simpa using h
    simp [skipFiller, hLine, hReturn, hPlain]
  | case6 inComment ch tail _ hLine hText hBlank ih =>
    have hReturn : ch ≠ '\r' := by
      rintro rfl
      cases hBlank
    simp [skipFiller, hLine, hReturn, hText, hBlank, ih h]
  | case7 inComment tail hText _ _ hBlank ih => simp [skipFiller, hText, hBlank, ih h]
  | case8 inComment ch tail _ hLine hText hBlank hHash =>
    have hReturn : ch ≠ '\r' := by simpa using h
    simp [skipFiller, hLine, hReturn, hText, hBlank, hHash]

theorem skipFiller_append_cons {inComment : Bool} {chars tail : List Char} {ch : Char}
    (h : skipFiller inComment chars = ch :: tail) (hReturn : ch ≠ '\r') (more : List Char) :
    skipFiller inComment (chars ++ '\n' :: more) = ch :: tail ++ '\n' :: more := by
  rw [skipFiller_append_line (by simpa [h] using hReturn), h]
  simp

theorem skipBlanks_append_cons {chars tail : List Char} {ch : Char} (h : skipBlanks chars = ch :: tail)
    (more : List Char) : skipBlanks (chars ++ '\n' :: more) = ch :: (tail ++ '\n' :: more) := by
  rw [skipBlanks_append_line, h]
  rfl

mutual

/-- More fuel does no harm either. -/
theorem readValue_append_line (fuel : Nat) {fuel' depth : Nat} (hFuel : fuel ≤ fuel')
    {chars rest : List Char} {v : Value} (h : readValue fuel depth chars = some (v, rest))
    (more : List Char) :
    readValue fuel' depth (chars ++ '\n' :: more) = some (v, rest ++ '\n' :: more) := by
  match fuel, fuel' with
  | 0, _ => cases h
  | fuel + 1, 0 => omega
  | fuel + 1, fuel' + 1 =>
    have hLess : fuel ≤ fuel' := by omega
    -- Every step goes over into the same step on the longer text.
    rw [readValue_eq_some_iff] at h ⊢
    cases h with
    | longBasic h => exact .longBasic (extends_long_basic _ _ _ more h)
    | basic hQuotes h =>
      exact .basic (hQuotes.append_line (by decide) more) (extends_readBasic _ _ _ more h)
    | longLiteral h => exact .longLiteral (extends_long_literal _ _ _ more h)
    | literal hQuotes h =>
      exact .literal (hQuotes.append_line (by decide) more) (extends_readLiteral _ _ _ more h)
    | array hDepth h => exact .array hDepth (readElements_append_line fuel hLess h more)
    | emptyTable hDepth h => exact .emptyTable hDepth (skipBlanks_append_cons h more)
    | table hDepth hOpen h hTable =>
      have hRead := readAssignments_append_line fuel hLess h more
      have hOpen' := head?_append_line_ne more hOpen (by decide)
      rw [← skipBlanks_append_line] at hRead hOpen'
      exact .table hDepth hOpen' hRead hTable
    | bare hHead hBare =>
      have hHead' : ∀ ch ∈ ['"', '\'', '[', '\x7b'], (chars ++ '\n' :: more).head? ≠ some ch := by
        intro ch hCh
        refine head?_append_line_ne more (hHead ch hCh) ?_
        rintro rfl
        simp at hCh
      have hStep : ValueStep fuel' depth (chars ++ '\n' :: more) v
          (splitBare (chars ++ '\n' :: more)).2 :=
        .bare hHead' (by rw [splitBare_append_line, hBare])
      rwa [splitBare_append_line] at hStep

theorem readElements_append_line (fuel : Nat) {fuel' depth : Nat} (hFuel : fuel ≤ fuel')
    {chars rest : List Char} {elements : List Value}
    (h : readElements fuel depth chars = some (elements, rest)) (more : List Char) :
    readElements fuel' depth (chars ++ '\n' :: more) = some (elements, rest ++ '\n' :: more) := by
  match fuel, fuel' with
  | 0, _ => cases h
  | fuel + 1, 0 => omega
  | fuel + 1, fuel' + 1 =>
    have hLess : fuel ≤ fuel' := by omega
    rw [readElements_eq_some_iff] at h ⊢
    cases h with
    | nil hClose => exact .nil (skipFiller_append_cons hClose (by decide) more)
    | last hHead hValue hClose =>
      obtain ⟨ch, tail, hChars, hPlain⟩ := beginsPlain_of_readValue hValue
      have hFiller := skipFiller_append_cons hChars (ne_return_of_plain (.inl hPlain)) more
      rw [hChars] at hHead hValue
      have hValue' := readValue_append_line fuel hLess hValue more
      rw [← hFiller] at hValue'
      refine .last ?_ hValue' (skipFiller_append_cons hClose (by decide) more)
      rw [hFiller]
      exact hHead
    | cons hHead hValue hComma hRest =>
      obtain ⟨ch, tail, hChars, hPlain⟩ := beginsPlain_of_readValue hValue
      have hFiller := skipFiller_append_cons hChars (ne_return_of_plain (.inl hPlain)) more
      rw [hChars] at hHead hValue
      have hValue' := readValue_append_line fuel hLess hValue more
      rw [← hFiller] at hValue'
      refine .cons ?_ hValue' (skipFiller_append_cons hComma (by decide) more)
        (readElements_append_line fuel hLess hRest more)
      rw [hFiller]
      exact hHead

theorem readAssignments_append_line (fuel : Nat) {fuel' depth : Nat} (hFuel : fuel ≤ fuel')
    {chars rest : List Char} {assignments : List (Key × Value)}
    (h : readAssignments fuel depth chars = some (assignments, rest)) (more : List Char) :
    readAssignments fuel' depth (chars ++ '\n' :: more) =
      some (assignments, rest ++ '\n' :: more) := by
  match fuel, fuel' with
  | 0, _ => cases h
  | fuel + 1, 0 => omega
  | fuel + 1, fuel' + 1 =>
    have hLess : fuel ≤ fuel' := by omega
    rw [readAssignments_eq_some_iff] at h ⊢
    cases h with
    | last hKey hValue hClose =>
      have hValue' := readValue_append_line fuel hLess hValue more
      rw [← skipBlanks_append_line] at hValue'
      exact .last (extends_readKey _ _ _ _ more hKey) hValue' (skipBlanks_append_cons hClose more)
    | cons hKey hValue hComma hRest =>
      have hValue' := readValue_append_line fuel hLess hValue more
      rw [← skipBlanks_append_line] at hValue'
      exact .cons (extends_readKey _ _ _ _ more hKey) hValue' (skipBlanks_append_cons hComma more)
        (readAssignments_append_line fuel hLess hRest more)

end

/-! ## Statements -/

theorem lineEnd_append_line (chars more : List Char) :
    lineEnd (chars ++ '\n' :: more) = lineEnd chars ++ '\n' :: more := by
  rw [lineEnd, lineEnd, skipBlanks_append_line]
  cases skipBlanks chars with
  | nil => rfl
  | cons ch tail =>
    by_cases hHash : ch = '#'
    · subst hHash
      exact dropWhile_append_line rfl tail more
    · simp [hHash]

theorem endLine?_append_line {chars rest : List Char} (h : endLine? chars = some rest)
    (more : List Char) : endLine? (chars ++ '\n' :: more) = some (rest ++ '\n' :: more) ∨
      rest = [] ∧ endLine? (chars ++ '\n' :: more) = some more := by
  simp only [endLine?_eq_some_iff, lineEnd_append_line] at h ⊢
  rcases h with ⟨hLine, rfl⟩ | hLine | hLine
  · exact .inr ⟨rfl, .inr (.inl (by rw [hLine]; rfl))⟩
  · exact .inl (.inr (.inl (by rw [hLine]; rfl)))
  · exact .inl (.inr (.inr (by rw [hLine]; rfl)))

theorem readStatement_append_line {chars rest : List Char} {statement : Statement}
    (h : readStatement chars = some (statement, rest)) (more : List Char) :
    readStatement (chars ++ '\n' :: more) = some (statement, rest ++ '\n' :: more) ∨
      rest = [] ∧ readStatement (chars ++ '\n' :: more) = some (statement, more) := by
  simp only [readStatement_eq_some_iff] at h ⊢
  cases h with
  | element hKey hEnd =>
    have hKey' := extends_readKey _ _ _ _ more hKey
    rcases endLine?_append_line hEnd more with hEnd' | ⟨rfl, hEnd'⟩
    · exact .inl (.element hKey' hEnd')
    · exact .inr ⟨rfl, .element hKey' hEnd'⟩
  | table hSingle hKey hEnd =>
    have hSingle' := head?_append_line_ne more hSingle (by decide)
    have hKey' := extends_readKey _ _ _ _ more hKey
    rcases endLine?_append_line hEnd more with hEnd' | ⟨rfl, hEnd'⟩
    · exact .inl (.table hSingle' hKey' hEnd')
    · exact .inr ⟨rfl, .table hSingle' hKey' hEnd'⟩
  | @assign _ tail tail' _ key v hHeader hKey hValue hEnd =>
    have hHeader' := head?_append_line_ne more hHeader (by decide)
    have hKey' := extends_readKey _ _ _ _ more hKey
    have hFuel : 2 * (skipBlanks tail).length + 2 ≤
        2 * (skipBlanks (tail ++ '\n' :: more)).length + 2 := by
      rw [skipBlanks_append_line, List.length_append]
      omega
    have hValue' := readValue_append_line _ hFuel hValue more
    rw [← skipBlanks_append_line] at hValue'
    rcases endLine?_append_line hEnd more with hEnd' | ⟨rfl, hEnd'⟩
    · exact .inl (.assign hHeader' hKey' hValue' hEnd')
    · exact .inr ⟨rfl, .assign hHeader' hKey' hValue' hEnd'⟩

theorem readStatements_append_line {more : List Char} (hMore : skipFiller false more = []) (fuel : Nat)
    {fuel' : Nat} (hFuel : fuel < fuel') {chars : List Char} {statements : List Statement}
    (h : readStatements fuel chars = some statements) :
    readStatements fuel' (chars ++ '\n' :: more) = some statements := by
  induction fuel generalizing fuel' chars statements with
  | zero => cases h
  | succ fuel ih =>
    obtain ⟨fuel', rfl⟩ : ∃ n, fuel' = n + 2 := ⟨fuel' - 2, by omega⟩
    rw [readStatements] at h
    split at h
    · rename_i hNil
      cases h
      rw [readStatements, skipFiller_append_line (by simp [hNil]), if_pos hNil, hMore]
    · obtain ⟨⟨statement, rest⟩, hStatement, h⟩ := Option.bind_eq_some_iff.mp h
      obtain ⟨statements, hRest, hEq⟩ := Option.bind_eq_some_iff.mp h
      cases hEq
      obtain ⟨ch, tail, hChars, hPlain⟩ := beginsPlain_of_readStatement hStatement
      rw [readStatements, skipFiller_append_cons hChars (ne_return_of_plain (.inl hPlain)) more]
      rw [hChars] at hStatement
      rcases readStatement_append_line hStatement more with hStatement' | ⟨rfl, hStatement'⟩
      · have hRest' := ih (show fuel < fuel' + 1 by omega) hRest
        rw [List.cons_append] at hStatement' ⊢
        simp [hStatement', hRest']
      · -- The line break that was added ends the last statement.
        have hEmpty : statements = [] := by
          cases fuel with
          | zero => cases hRest
          | succ fuel => cases hRest; rfl
        rw [List.cons_append] at hStatement' ⊢
        simp [hStatement', readStatements, hMore, hEmpty]

theorem skipFiller_comment {comment : List Char} (h : ∀ ch ∈ comment, isPlain ch = true) :
    skipFiller false ('#' :: (comment ++ ['\n'])) = [] := by
  have hInside : ∀ comment : List Char, (∀ ch ∈ comment, isPlain ch = true) →
      skipFiller true (comment ++ ['\n']) = [] := by
    intro comment hPlain
    induction comment with
    | nil => simp [skipFiller]
    | cons ch comment ih =>
      obtain ⟨hFirst, hRest⟩ := List.forall_mem_cons.mp hPlain
      have hReturn := ne_return_of_plain (.inl hFirst)
      have hLine : ch ≠ '\n' := by
        rintro rfl
        cases hFirst
      simp [skipFiller, hReturn, hLine, hFirst, ih hRest]
  simp [skipFiller, isBlank, hInside comment h]

theorem skipMark_append_line (chars more : List Char) :
    skipMark (chars ++ '\n' :: more) = skipMark chars ++ '\n' :: more := by
  cases chars with
  | nil => rfl
  | cons ch chars =>
    by_cases hMark : ch = '\uFEFF'
    · rw [hMark]
      rfl
    · simp [skipMark, hMark]

/-- A law of readers of texts: a comment behind a text is no part of it. -/
def PassesOverComments {α : Type} (read : String → Option α) : Prop :=
  ∀ text comment a, (∀ ch ∈ comment.toList, isPlain ch = true) → read text = some a →
    read (text ++ "\n#" ++ comment ++ "\n") = some a

theorem PassesOverComments.bind {α β : Type} {read : String → Option α} (h : PassesOverComments read)
    (f : α → Option β) : PassesOverComments fun text => (read text).bind f := by
  intro text comment b hComment hRead
  obtain ⟨a, hText, hFound⟩ := Option.bind_eq_some_iff.mp hRead
  exact Option.bind_eq_some_iff.mpr ⟨a, h text comment a hComment hText, hFound⟩

theorem passesOverComments_ofString? : PassesOverComments Table.ofString? := by
  intro text comment root hComment h
  obtain ⟨statements, hStatements, hRoot⟩ := ofString?_eq_some_iff.mp h
  have hText : (text ++ "\n#" ++ comment ++ "\n").toList =
      text.toList ++ '\n' :: '#' :: (comment.toList ++ ['\n']) := by simp
  refine ofString?_eq_some_iff.mpr ⟨statements, ?_, hRoot⟩
  rw [hText, skipMark_append_line]
  refine readStatements_append_line (skipFiller_comment hComment) _ ?_ hStatements
  rw [List.length_append, List.length_cons]
  omega

end SignedDirectory.Toml
