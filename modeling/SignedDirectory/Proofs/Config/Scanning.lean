import SignedDirectory.Proofs.Config.Expansion
import SignedDirectory.Proofs.Toml.Extension
import SignedDirectory.Proofs.Toml.LongStrings

/-!
# The scanner of placeholders in a TOML document

The scanner knows no grammar, only quotes, backslashes, hashes and line ends. Where a key, a value or a
statement of TOML ends, it is outside strings again, and at the end of a document it is outside strings or
in a comment (`after_of_ofString?`), provided that it gets through every string over several lines: there
it takes each quote for an end or a beginning.
-/

namespace SignedDirectory.Config

open Toml

/-- A scanner that goes through a text from one mode is in another one where the rest of the text
begins. -/
structure Scans (mode : Mode) (chars : List Char) (mode' : Mode) (rest : List Char) : Prop where
  isSuffix : rest <:+ chars
  after_eq : mode.after chars = mode'.after rest

namespace Scans

variable {mode mode' mode'' : Mode} {chars rest rest' : List Char}

theorem refl (mode : Mode) (chars : List Char) : Scans mode chars mode chars :=
  ⟨List.suffix_rfl, rfl⟩

theorem trans (h : Scans mode chars mode' rest) (h' : Scans mode' rest mode'' rest') :
    Scans mode chars mode'' rest' :=
  ⟨h'.isSuffix.trans h.isSuffix, h.after_eq.trans h'.after_eq⟩

theorem append {taken : List Char} (hTaken : mode.after taken = mode')
    (h : Scans mode' chars mode'' rest) : Scans mode (taken ++ chars) mode'' rest := by
  refine ⟨h.isSuffix.trans (List.suffix_append taken chars), ?_⟩
  rw [Mode.after_append, hTaken, h.after_eq]

theorem cons {ch : Char} (hNext : mode.next ch = mode') (h : Scans mode' chars mode'' rest) :
    Scans mode (ch :: chars) mode'' rest := by
  refine ⟨h.isSuffix.trans (List.suffix_cons ch chars), ?_⟩
  rw [Mode.after_cons, hNext, h.after_eq]

theorem dropWhile {p : Char → Bool} (h : ∀ ch, p ch = true → mode.next ch = mode)
    (chars : List Char) : Scans mode chars mode (chars.dropWhile p) := by
  induction chars with
  | nil => exact refl mode []
  | cons ch chars ih =>
    by_cases hCh : p ch = true
    · rw [List.dropWhile_cons_of_pos hCh]
      exact cons (h ch hCh) ih
    · rw [List.dropWhile_cons_of_neg hCh]
      exact refl mode _

end Scans

/-- A character that no string or comment begins with. -/
theorem next_outside {ch : Char} (h : ch ≠ '"' ∧ ch ≠ '\'' ∧ ch ≠ '#') :
    Mode.outside.next ch = .outside := by
  simp [Mode.next, h.1, h.2.1, h.2.2]

theorem next_quoted {ch : Char} (hQuote : ch ≠ '"') (hBackslash : ch ≠ '\\') :
    Mode.next ch (.quoted '"') = .quoted '"' := by
  simp [Mode.next, hQuote, hBackslash]

theorem next_comment {ch : Char} (h : isPlain ch = true) : Mode.comment.next ch = .comment := by
  have hLine : ch ≠ '\n' := by
    rintro rfl
    cases h
  simp [Mode.next, hLine]

/-! ## Strings on one line -/

theorem scans_of_readLiteral {chars s rest : List Char} (h : readLiteral chars = some (s, rest)) :
    Scans (.quoted '\'') chars .outside rest := by
  fun_induction readLiteral chars generalizing s with
  | case1 => cases h
  | case2 tail =>
    cases h
    exact .cons rfl (.refl _ _)
  | case3 ch tail hQuote hPlain ih =>
    obtain ⟨s, hRead, rfl⟩ := consChar_eq_some_iff.mp h
    refine .cons ?_ (ih hRead)
    simp [Mode.next]
    exact hQuote
  | case4 => cases h

theorem hexValue?_of_ofHexDigits? {digits : List Char} {code : Nat}
    (h : Bytes.ofHexDigits? digits = some code) : ∀ ch ∈ digits, Bytes.hexValue? ch ≠ none := by
  have hFold : ∀ n, digits.foldlM (fun n ch => return 16 * n + (← Bytes.hexValue? ch)) n = some code →
      ∀ ch ∈ digits, Bytes.hexValue? ch ≠ none := by
    clear h
    induction digits with
    | nil => simp
    | cons ch digits ih =>
      intro n h
      rw [List.foldlM_cons] at h
      obtain ⟨n', hDigit, hRest⟩ := Option.bind_eq_some_iff.mp h
      refine List.forall_mem_cons.mpr ⟨fun hNone => ?_, ih n' hRest⟩
      rw [hNone] at hDigit
      cases hDigit
  exact hFold 0 h

/-- The digits of a code point neither close a string nor escape anything. -/
theorem after_codePoint {digits : List Char} {ch : Char} (h : codePoint? digits = some ch) :
    (Mode.quoted '"').after digits = .quoted '"' := by
  obtain ⟨code, hCode, -⟩ := Option.bind_eq_some_iff.mp h
  have hDigits := hexValue?_of_ofHexDigits? hCode
  clear hCode h
  induction digits with
  | nil => rfl
  | cons ch digits ih =>
    obtain ⟨hFirst, hRest⟩ := List.forall_mem_cons.mp hDigits
    have hQuote : ch ≠ '"' := by
      rintro rfl
      exact hFirst rfl
    have hBackslash : ch ≠ '\\' := by
      rintro rfl
      exact hFirst rfl
    rw [Mode.after_cons, next_quoted hQuote hBackslash, ih hRest]

theorem scans_of_readBasic {chars s rest : List Char} (h : readBasic chars = some (s, rest)) :
    Scans (.quoted '"') chars .outside rest := by
  fun_induction readBasic chars generalizing s with
  | case1 => cases h
  | case2 tail =>
    cases h
    exact .cons rfl (.refl _ _)
  | case3 a b c d tail ih =>
    obtain ⟨ch, hCode, h⟩ := Option.bind_eq_some_iff.mp h
    obtain ⟨s, hRead, rfl⟩ := consChar_eq_some_iff.mp h
    exact .cons rfl (.cons rfl (.append (after_codePoint hCode) (ih hRead)))
  | case4 a b c d e f g g' tail ih =>
    obtain ⟨ch, hCode, h⟩ := Option.bind_eq_some_iff.mp h
    obtain ⟨s, hRead, rfl⟩ := consChar_eq_some_iff.mp h
    exact .cons rfl (.cons rfl (.append (after_codePoint hCode) (ih hRead)))
  | case5 ch tail _ _ ih =>
    obtain ⟨ch', -, h⟩ := Option.bind_eq_some_iff.mp h
    obtain ⟨s, hRead, rfl⟩ := consChar_eq_some_iff.mp h
    exact .cons rfl (.cons rfl (ih hRead))
  | case6 ch tail hQuote _ _ hEscape _ ih =>
    obtain ⟨s, hRead, rfl⟩ := consChar_eq_some_iff.mp h
    have hBackslash := ne_backslash_of_rest hEscape (by rintro rfl; cases hRead)
    exact .cons (next_quoted hQuote hBackslash) (ih hRead)
  | case7 => cases h

/-! ## Keys and bare values -/

theorem scans_skipBlanks (chars : List Char) :
    Scans .outside chars .outside (skipBlanks chars) := by
  refine .dropWhile (fun ch hBlank => next_outside ?_) chars
  refine ⟨?_, ?_, ?_⟩ <;> rintro rfl <;> cases hBlank

theorem scans_nameChars (chars : List Char) :
    Scans .outside chars .outside (chars.dropWhile isNameChar) := by
  refine .dropWhile (fun ch hName => next_outside ?_) chars
  refine ⟨?_, ?_, ?_⟩ <;> rintro rfl <;> cases hName

theorem scans_bareChars (chars : List Char) :
    Scans .outside chars .outside (chars.dropWhile isBareChar) := by
  refine .dropWhile (fun ch hBare => next_outside ?_) chars
  refine ⟨?_, ?_, ?_⟩ <;> rintro rfl <;> cases hBare

theorem scans_of_readName {chars rest : List Char} {name : String}
    (h : readName chars = some (name, rest)) : Scans .outside chars .outside rest := by
  rw [readName.eq_def] at h
  split at h
  · obtain ⟨⟨s, rest⟩, hRead, hEq⟩ := Option.map_eq_some_iff.mp h
    cases hEq
    exact .cons rfl (scans_of_readBasic hRead)
  · obtain ⟨⟨s, rest⟩, hRead, hEq⟩ := Option.map_eq_some_iff.mp h
    cases hEq
    exact .cons rfl (scans_of_readLiteral hRead)
  · dsimp only at h
    split at h
    · cases h
    · cases h
      exact scans_nameChars chars

/-- White space before a character that no string or comment begins with. -/
theorem scans_of_skipBlanks {chars tail : List Char} {ch : Char} (h : skipBlanks chars = ch :: tail)
    (hCh : ch ≠ '"' ∧ ch ≠ '\'' ∧ ch ≠ '#') : Scans .outside chars .outside tail :=
  (h ▸ scans_skipBlanks chars).trans (.cons (next_outside hCh) (.refl _ tail))

theorem scans_of_readKey {limit : Nat} {chars rest : List Char} {key : Key}
    (h : readKey limit chars = some (key, rest)) : Scans .outside chars .outside rest := by
  induction limit generalizing chars key with
  | zero => cases h
  | succ limit ih =>
    rw [readKey_eq_some_iff] at h
    cases h with
    | last hName =>
      have hTail := (scans_skipBlanks chars).trans (scans_of_readName hName)
      exact hTail.trans (scans_skipBlanks _)
    | dot hName hDot hRest =>
      have hTail := (scans_skipBlanks chars).trans (scans_of_readName hName)
      exact hTail.trans ((scans_of_skipBlanks hDot (by decide)).trans (ih hRest))

/-- A key with the equals sign behind it and the white space before the value. -/
theorem scans_of_assignment {limit : Nat} {chars tail : List Char} {key : Key}
    (h : readKey limit chars = some (key, '=' :: tail)) :
    Scans .outside chars .outside (skipBlanks tail) :=
  (scans_of_readKey h).trans (.cons (by decide) (scans_skipBlanks tail))

theorem scans_splitBare (chars : List Char) :
    Scans .outside chars .outside (splitBare chars).2 := by
  by_cases hParts : ∃ ch rest, Parts chars ch rest
  · obtain ⟨ch, rest, h⟩ := hParts
    rw [h.splitBare_eq]
    have hDate := h.rest_eq ▸ scans_bareChars chars
    exact hDate.trans (.cons (by decide) (scans_bareChars (ch :: rest)))
  · simp only [not_exists] at hParts
    rw [splitBare_eq hParts]
    exact scans_bareChars chars

/-! ## White space and comments -/

/-- The mode of a scanner that is between strings. -/
def between (inComment : Bool) : Mode := if inComment then .comment else .outside

/-- The scanner stays in a comment only if the text ends there or goes on as no line may. -/
theorem scans_skipFiller (inComment : Bool) (chars : List Char) : ∃ inComment',
    Scans (between inComment) chars (between inComment') (skipFiller inComment chars) ∧
      (inComment' = true → ¬BeginsPlain (skipFiller inComment chars)) := by
  fun_induction skipFiller inComment chars with
  | case1 inComment => exact ⟨inComment, .refl _ _, by simp [BeginsPlain]⟩
  | case2 inComment tail ih =>
    obtain ⟨inComment', hScans, hPlain⟩ := ih
    refine ⟨inComment', ?_, hPlain⟩
    cases inComment
    · exact .cons rfl (.cons rfl hScans)
    · exact .cons rfl (.cons rfl hScans)
  | case3 inComment tail _ ih =>
    obtain ⟨inComment', hScans, hPlain⟩ := ih
    refine ⟨inComment', ?_, hPlain⟩
    cases inComment <;> exact .cons rfl hScans
  | case4 ch tail _ hLine hPlain ih =>
    obtain ⟨inComment', hScans, hEnd⟩ := ih
    exact ⟨inComment', .cons (next_comment hPlain) hScans, hEnd⟩
  | case5 ch tail _ hLine hPlain =>
    exact ⟨true, .refl _ _, by simpa [BeginsPlain] using hPlain⟩
  | case6 inComment ch tail _ hLine hText hBlank ih =>
    obtain rfl : inComment = false := by simpa using hText
    obtain ⟨inComment', hScans, hEnd⟩ := ih
    refine ⟨inComment', .cons (next_outside ?_) hScans, hEnd⟩
    refine ⟨?_, ?_, ?_⟩ <;> rintro rfl <;> cases hBlank
  | case7 inComment tail hText _ _ hBlank ih =>
    obtain rfl : inComment = false := by simpa using hText
    obtain ⟨inComment', hScans, hEnd⟩ := ih
    exact ⟨inComment', .cons rfl hScans, hEnd⟩
  | case8 inComment ch tail _ hLine hText hBlank hHash =>
    obtain rfl : inComment = false := by simpa using hText
    exact ⟨false, .refl _ _, by simp⟩

theorem scans_of_skipFiller {chars : List Char} (h : BeginsPlain (skipFiller false chars)) :
    Scans .outside chars .outside (skipFiller false chars) := by
  obtain ⟨inComment, hScans, hEnd⟩ := scans_skipFiller false chars
  cases inComment with
  | false => exact hScans
  | true => exact absurd h (hEnd rfl)

theorem scans_of_skipFiller_cons {chars tail : List Char} {ch : Char}
    (h : skipFiller false chars = ch :: tail) (hPlain : isPlain ch = true)
    (hCh : ch ≠ '"' ∧ ch ≠ '\'' ∧ ch ≠ '#') : Scans .outside chars .outside tail := by
  have hScans := scans_of_skipFiller ⟨ch, tail, h, hPlain⟩
  rw [h] at hScans
  exact hScans.trans (.cons (next_outside hCh) (.refl _ tail))

theorem scans_lineEnd (chars : List Char) :
    ∃ inComment, Scans .outside chars (between inComment) (lineEnd chars) := by
  have hBlanks := scans_skipBlanks chars
  rw [lineEnd]
  split
  · rename_i tail hHash
    rw [hHash] at hBlanks
    exact ⟨true, hBlanks.trans (.cons rfl (.dropWhile (fun ch => next_comment) tail))⟩
  · exact ⟨false, hBlanks⟩

/-- Only the last line of a text may end in a comment. -/
theorem Scans.endLine {chars tail rest : List Char} (hFront : Scans .outside chars .outside tail)
    (h : endLine? tail = some rest) :
    Scans .outside chars .outside rest ∨ rest = [] ∧ Mode.outside.after chars = .comment := by
  obtain ⟨inComment, hLine⟩ := scans_lineEnd tail
  have hScans := hFront.trans hLine
  rcases endLine?_eq_some_iff.mp h with ⟨hNil, rfl⟩ | hBreak | hBreak
  · rw [hNil] at hScans
    cases inComment with
    | false => exact .inl hScans
    | true => exact .inr ⟨rfl, hScans.after_eq⟩
  · rw [hBreak] at hScans
    cases inComment with
    | false => exact .inl (hScans.trans (.cons rfl (.refl _ rest)))
    | true => exact .inl (hScans.trans (.cons rfl (.refl _ rest)))
  · rw [hBreak] at hScans
    cases inComment with
    | false => exact .inl (hScans.trans (.cons rfl (.cons rfl (.refl _ rest))))
    | true => exact .inl (hScans.trans (.cons rfl (.cons rfl (.refl _ rest))))

/-! ## Strings over several lines -/

theorem scans_skipLineEnd {mode : Mode} (hLine : mode.next '\n' = mode)
    (hReturn : mode.next '\r' = mode) (chars : List Char) :
    Scans mode chars mode (skipLineEnd chars) := by
  rw [skipLineEnd.eq_def]
  split
  · exact .cons hLine (.refl _ _)
  · exact .cons hReturn (.cons hLine (.refl _ _))
  · exact .refl _ _

theorem scans_of_readLongLiteral {chars s rest : List Char}
    (h : readLongLiteral chars = some (s, rest)) (hQuote : '\'' ∉ s) :
    Scans (.quoted '\'') chars .outside rest := by
  fun_induction readLongLiteral chars generalizing s with
  | case1 => cases h
  | case2 tail =>
    cases h
    simp at hQuote
  | case3 tail =>
    cases h
    simp at hQuote
  | case4 tail =>
    cases h
    exact .cons rfl (.cons rfl (.cons rfl (.refl _ _)))
  | case5 tail ih =>
    obtain ⟨s, hRead, rfl⟩ := consChar_eq_some_iff.mp h
    exact .cons rfl (.cons rfl (ih hRead (List.not_mem_of_not_mem_cons hQuote)))
  | case6 ch tail _ _ _ _ _ ih =>
    obtain ⟨s, hRead, rfl⟩ := consChar_eq_some_iff.mp h
    have hCh : ch ≠ '\'' := (List.ne_of_not_mem_cons hQuote).symm
    exact .cons (by simp [Mode.next, hCh]) (ih hRead (List.not_mem_of_not_mem_cons hQuote))
  | case7 => cases h

theorem scans_of_readLongBasic {isTrimming : Bool} {chars s rest : List Char}
    (h : readLongBasic isTrimming chars = some (s, rest)) (hQuote : '"' ∉ s) :
    Scans (.quoted '"') chars .outside rest := by
  fun_induction readLongBasic isTrimming chars generalizing s with
  | case1 => cases h
  | case2 isTrimming tail =>
    cases h
    simp at hQuote
  | case3 isTrimming tail =>
    cases h
    simp at hQuote
  | case4 isTrimming tail =>
    cases h
    exact .cons rfl (.cons rfl (.cons rfl (.refl _ _)))
  | case5 isTrimming a b c d tail ih =>
    obtain ⟨ch, hCode, h⟩ := Option.bind_eq_some_iff.mp h
    obtain ⟨s, hRead, rfl⟩ := consChar_eq_some_iff.mp h
    have hTail := ih hRead (List.not_mem_of_not_mem_cons hQuote)
    exact .cons rfl (.cons rfl (.append (after_codePoint hCode) hTail))
  | case6 isTrimming a b c d e f g g' tail ih =>
    obtain ⟨ch, hCode, h⟩ := Option.bind_eq_some_iff.mp h
    obtain ⟨s, hRead, rfl⟩ := consChar_eq_some_iff.mp h
    have hTail := ih hRead (List.not_mem_of_not_mem_cons hQuote)
    exact .cons rfl (.cons rfl (.append (after_codePoint hCode) hTail))
  | case7 isTrimming ch tail _ _ _ _ ih => exact .cons rfl (.cons rfl (ih h hQuote))
  | case8 => cases h
  | case9 isTrimming ch tail _ _ _ ih =>
    obtain ⟨ch', -, h⟩ := Option.bind_eq_some_iff.mp h
    obtain ⟨s, hRead, rfl⟩ := consChar_eq_some_iff.mp h
    exact .cons rfl (.cons rfl (ih hRead (List.not_mem_of_not_mem_cons hQuote)))
  | case10 tail ih => exact .cons rfl (.cons rfl (ih h hQuote))
  | case11 isTrimming tail _ ih =>
    obtain ⟨s, hRead, rfl⟩ := consChar_eq_some_iff.mp h
    exact .cons rfl (.cons rfl (ih hRead (List.not_mem_of_not_mem_cons hQuote)))
  | case12 isTrimming ch tail _ _ _ _ _ _ _ hTrim ih =>
    have hNext : Mode.next ch (.quoted '"') = .quoted '"' := by
      refine next_quoted ?_ ?_ <;> rintro rfl <;> simp [isBlank] at hTrim
    exact .cons hNext (ih h hQuote)
  | case13 isTrimming ch tail _ _ _ _ _ hEscape _ _ _ ih =>
    obtain ⟨s, hRead, rfl⟩ := consChar_eq_some_iff.mp h
    have hCh : ch ≠ '"' := (List.ne_of_not_mem_cons hQuote).symm
    have hBackslash := ne_backslash_of_rest hEscape (by rintro rfl; cases hRead)
    exact .cons (next_quoted hCh hBackslash) (ih hRead (List.not_mem_of_not_mem_cons hQuote))
  | case14 => cases h

/-- The scanner gets through strings over several lines: inside behind the opening quotes, it is outside
behind the closing quotes. -/
def PassesAll (strings : List LongString) : Prop :=
  ∀ l ∈ strings, Scans (.quoted l.form.quote) l.tail .outside l.rest

theorem PassesAll.mono {strings part : List LongString} (h : PassesAll strings) (hPart : part ⊆ strings) :
    PassesAll part := fun l hl => h l (hPart hl)

theorem PassesAll.scans {form : LongForm} {tail chars rest : List Char} (h : PassesAll (form.strings tail))
    (hRead : form.read tail = some (chars, rest)) : Scans (.quoted form.quote) tail .outside rest := by
  rw [LongForm.strings_eq hRead] at h
  exact h _ List.mem_cons_self

/-- The scanner gets through every string over several lines of a document. -/
def PassesLongStrings (text : List Char) : Prop := PassesAll (longStrings text)

/-- No string over several lines has its own quote in it. -/
def KeepsQuotesOut (text : List Char) : Prop := ∀ l ∈ longStrings text, l.form.quote ∉ l.chars

instance (text : List Char) : Decidable (KeepsQuotesOut text) := List.decidableBAll _ (longStrings text)

theorem scans_of_quote_not_mem {l : LongString} (h : l.form.quote ∉ l.chars) :
    Scans (.quoted l.form.quote) l.tail .outside l.rest := by
  obtain ⟨form, tail, chars, rest, hRead⟩ := l
  cases form with
  | basic => exact (scans_skipLineEnd rfl rfl tail).trans (scans_of_readLongBasic hRead h)
  | literal => exact (scans_skipLineEnd rfl rfl tail).trans (scans_of_readLongLiteral hRead h)

theorem KeepsQuotesOut.passesLongStrings {text : List Char} (h : KeepsQuotesOut text) :
    PassesLongStrings text := fun l hl => scans_of_quote_not_mem (h l hl)

/-! ## Values -/

mutual

theorem scans_of_readValue (fuel : Nat) {depth : Nat} {chars rest : List Char} {v : Value}
    (hLong : PassesAll (valueStrings fuel depth chars)) (h : readValue fuel depth chars = some (v, rest)) :
    Scans .outside chars .outside rest := by
  match fuel with
  | 0 => cases h
  | fuel + 1 =>
    rw [readValue_eq_some_iff] at h
    cases h with
    | longBasic hRead =>
      rw [valueStrings] at hLong
      exact .cons rfl (.cons rfl (.cons rfl (hLong.scans hRead)))
    | basic hQuotes hRead => exact .cons rfl (scans_of_readBasic hRead)
    | longLiteral hRead =>
      rw [valueStrings] at hLong
      exact .cons rfl (.cons rfl (.cons rfl (hLong.scans hRead)))
    | literal hQuotes hRead => exact .cons rfl (scans_of_readLiteral hRead)
    | array hDepth hRead =>
      rw [valueStrings] at hLong
      exact .cons rfl (scans_of_readElements fuel hLong hRead)
    | emptyTable hDepth hClose => exact .cons rfl (scans_of_skipBlanks hClose (by decide))
    | @table tail _ _ _ hDepth hOpen hRead hTable =>
      rw [valueStrings] at hLong
      exact .cons rfl ((scans_skipBlanks tail).trans (scans_of_readAssignments fuel hLong hRead))
    | bare hHead hBare => exact scans_splitBare chars

theorem scans_of_readElements (fuel : Nat) {depth : Nat} {chars rest : List Char} {elements : List Value}
    (hLong : PassesAll (elementStrings fuel depth chars))
    (h : readElements fuel depth chars = some (elements, rest)) :
    Scans .outside chars .outside rest := by
  match fuel with
  | 0 => cases h
  | fuel + 1 =>
    rw [readElements_eq_some_iff] at h
    cases h with
    | nil hClose => exact scans_of_skipFiller_cons hClose (by decide) (by decide)
    | last hHead hValue hClose =>
      -- The scanner is in no comment here, because a comment would have gone on.
      have hFiller := scans_of_skipFiller (beginsPlain_of_readValue hValue)
      have hFirst := hLong.mono (subset_elementStrings hValue).1
      have hTail := hFiller.trans (scans_of_readValue fuel hFirst hValue)
      exact hTail.trans (scans_of_skipFiller_cons hClose (by decide) (by decide))
    | cons hHead hValue hComma hRest =>
      have hFiller := scans_of_skipFiller (beginsPlain_of_readValue hValue)
      have hFirst := hLong.mono (subset_elementStrings hValue).1
      have hOthers := hLong.mono ((subset_elementStrings hValue).2 _ hComma)
      have hTail := hFiller.trans (scans_of_readValue fuel hFirst hValue)
      have hItem := hTail.trans (scans_of_skipFiller_cons hComma (by decide) (by decide))
      exact hItem.trans (scans_of_readElements fuel hOthers hRest)

theorem scans_of_readAssignments (fuel : Nat) {depth : Nat} {chars rest : List Char}
    {assignments : List (Key × Value)} (hLong : PassesAll (assignmentStrings fuel depth chars))
    (h : readAssignments fuel depth chars = some (assignments, rest)) :
    Scans .outside chars .outside rest := by
  match fuel with
  | 0 => cases h
  | fuel + 1 =>
    rw [readAssignments_eq_some_iff] at h
    cases h with
    | last hKey hValue hClose =>
      have hFirst := hLong.mono (subset_assignmentStrings hKey hValue).1
      have hTail := (scans_of_assignment hKey).trans (scans_of_readValue fuel hFirst hValue)
      exact hTail.trans (scans_of_skipBlanks hClose (by decide))
    | cons hKey hValue hComma hRest =>
      have hFirst := hLong.mono (subset_assignmentStrings hKey hValue).1
      have hOthers := hLong.mono ((subset_assignmentStrings hKey hValue).2 _ hComma)
      have hTail := (scans_of_assignment hKey).trans (scans_of_readValue fuel hFirst hValue)
      have hItem := hTail.trans (scans_of_skipBlanks hComma (by decide))
      exact hItem.trans (scans_of_readAssignments fuel hOthers hRest)

end

/-! ## Statements -/

theorem scans_of_readStatement {chars rest : List Char} {statement : Statement}
    (hLong : PassesAll (statementStrings chars)) (h : readStatement chars = some (statement, rest)) :
    Scans .outside chars .outside rest ∨ rest = [] ∧ Mode.outside.after chars = .comment := by
  rw [readStatement_eq_some_iff] at h
  cases h with
  | @element tail tail' _ key hKey hEnd =>
    have hBrackets : Scans .outside (']' :: ']' :: tail') .outside tail' :=
      .cons rfl (.cons rfl (.refl _ tail'))
    have hFront : Scans .outside ('[' :: '[' :: tail) .outside tail' :=
      .cons rfl (.cons rfl ((scans_of_readKey hKey).trans hBrackets))
    exact hFront.endLine hEnd
  | @table tail tail' _ key hSingle hKey hEnd =>
    have hBracket : Scans .outside (']' :: tail') .outside tail' :=
      .cons rfl (.refl _ tail')
    have hFront : Scans .outside ('[' :: tail) .outside tail' :=
      .cons rfl ((scans_of_readKey hKey).trans hBracket)
    exact hFront.endLine hEnd
  | assign hHeader hKey hValue hEnd =>
    simp only [statementStrings, hKey] at hLong
    have hTail := (scans_of_assignment hKey).trans (scans_of_readValue _ hLong hValue)
    exact hTail.endLine hEnd

theorem after_of_readStatements (fuel : Nat) {chars : List Char} {statements : List Statement}
    (hLong : PassesAll (statementsStrings fuel chars)) (h : readStatements fuel chars = some statements) :
    Mode.outside.after chars = .outside ∨ Mode.outside.after chars = .comment := by
  induction fuel generalizing chars statements with
  | zero => cases h
  | succ fuel ih =>
    rw [readStatements] at h
    split at h
    · rename_i hNil
      obtain ⟨inComment, hScans, -⟩ := scans_skipFiller false chars
      rw [hNil] at hScans
      have hAfter : Mode.outside.after chars = between inComment := hScans.after_eq
      rw [hAfter]
      cases inComment with
      | false => exact .inl rfl
      | true => exact .inr rfl
    · obtain ⟨⟨statement, rest⟩, hStatement, h⟩ := Option.bind_eq_some_iff.mp h
      obtain ⟨statements, hRest, -⟩ := Option.bind_eq_some_iff.mp h
      have hFiller := scans_of_skipFiller (beginsPlain_of_readStatement hStatement)
      rw [statementsStrings_cons hStatement] at hLong
      have hFirst := hLong.mono (List.subset_append_left _ _)
      have hOthers := hLong.mono (List.subset_append_right _ _)
      rw [hFiller.after_eq]
      rcases scans_of_readStatement hFirst hStatement with hScans | ⟨-, hComment⟩
      · rw [hScans.after_eq]
        exact ih hOthers hRest
      · exact .inr hComment

theorem scans_skipMark (chars : List Char) : Scans .outside chars .outside (skipMark chars) := by
  rw [skipMark.eq_def]
  split
  · exact .cons (by decide) (.refl _ _)
  · exact .refl _ _

/-- At the end of a document the scanner is outside strings. -/
theorem after_of_ofString? {text : String} {root : Table} (hLong : PassesLongStrings text.toList)
    (h : Table.ofString? text = some root) : Mode.outside.after text.toList = .outside ∨
      Mode.outside.after text.toList = .comment := by
  obtain ⟨statements, hStatements, -⟩ := ofString?_eq_some_iff.mp h
  rw [(scans_skipMark text.toList).after_eq]
  exact after_of_readStatements _ hLong hStatements

end SignedDirectory.Config
