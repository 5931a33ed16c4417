import SignedDirectory.Toml.Document

/-!
# The readers of TOML, one step at a time

The reader of a value looks at the first characters and leaves the rest to other readers; so do those of
elements, assignments, keys and statements. `ValueStep` and its companions list what they may find, and
`readValue_eq_some_iff` and its companions say that this is all. Whatever is read begins with a character
that a line may have (`beginsPlain_of_readValue`).
-/

namespace SignedDirectory.Toml

/-! ## Strings -/

theorem consChar_eq_some_iff {ch : Char} {found : Option (List Char × List Char)}
    {chars rest : List Char} : consChar ch found = some (chars, rest) ↔
      ∃ chars', found = some (chars', rest) ∧ chars = ch :: chars' := by
  constructor
  · intro h
    obtain ⟨⟨chars', rest'⟩, hFound, hEq⟩ := Option.map_eq_some_iff.mp h
    cases hEq
    exact ⟨chars', hFound, rfl⟩
  · rintro ⟨chars', rfl, rfl⟩
    rfl

/-- The letters that announce a code point are no escapes by themselves. -/
theorem ne_of_escape? {ch ch' : Char} (h : escape? ch = some ch') : ch ≠ 'u' ∧ ch ≠ 'U' := by
  constructor <;> rintro rfl <;> cases h

/-- A backslash that opens no escape is the last character. -/
theorem ne_backslash_of_rest {ch : Char} {tail : List Char}
    (h : ∀ ch' tail', ch = '\\' → tail = ch' :: tail' → False) (hTail : tail ≠ []) : ch ≠ '\\' := by
  intro hCh
  obtain ⟨ch', tail', hRest⟩ := List.exists_cons_of_ne_nil hTail
  exact h ch' tail' hCh hRest

theorem ne_return_of_plain {ch : Char} (h : isPlain ch = true ∨ ch = '\n') : ch ≠ '\r' := by
  rintro rfl
  rcases h with h | h <;> cases h

/-- The text does not begin with two quotes, so that a quote before it opens a string on one line. -/
def NoQuotes (quote : Char) (chars : List Char) : Prop :=
  ∀ rest, chars ≠ quote :: quote :: rest

/-- A character that opens no escape and closes no string. -/
theorem readLongBasic_char {ch : Char} {tail : List Char} (hQuote : ch = '"' → NoQuotes '"' tail)
    (hBackslash : ch ≠ '\\') (hReturn : ch ≠ '\r') (isTrimming : Bool) :
    readLongBasic isTrimming (ch :: tail) =
      if isTrimming ∧ (isBlank ch ∨ ch = '\n') then readLongBasic true tail
      else if isPlain ch ∨ ch = '\n' then consChar ch (readLongBasic false tail)
      else none := by
  rw [readLongBasic]
  · exact fun tail' hCh => hQuote hCh _
  · exact fun tail' hCh => hQuote hCh _
  · exact fun tail' hCh => hQuote hCh _
  · exact fun _ _ _ _ _ hCh => absurd hCh hBackslash
  · exact fun _ _ _ _ _ _ _ _ _ hCh => absurd hCh hBackslash
  · exact fun _ _ hCh => absurd hCh hBackslash
  · exact fun _ hCh => absurd hCh hReturn

/-! ## Values -/

/-- A single space parts a date from a time. -/
structure Parts (chars : List Char) (ch : Char) (rest : List Char) : Prop where
  rest_eq : chars.dropWhile isBareChar = ' ' :: ch :: rest
  isDate : afterDate? (chars.takeWhile isBareChar) = some []
  isDigit : Decimal.isDigit ch = true

theorem Parts.splitBare_eq {chars rest : List Char} {ch : Char} (h : Parts chars ch rest) :
    splitBare chars =
      (chars.takeWhile isBareChar ++ ' ' :: (ch :: rest).takeWhile isBareChar,
        (ch :: rest).dropWhile isBareChar) := by
  simp only [splitBare, h.rest_eq]
  rw [if_pos ⟨h.isDate, h.isDigit⟩]

theorem splitBare_eq {chars : List Char} (h : ∀ ch rest, ¬Parts chars ch rest) :
    splitBare chars = (chars.takeWhile isBareChar, chars.dropWhile isBareChar) := by
  simp only [splitBare]
  split
  · rename_i ch rest hRest
    rw [if_neg fun hTime => h ch rest ⟨hRest, hTime.1, hTime.2⟩, hRest]
  · rfl

inductive ValueStep (fuel depth : Nat) : List Char → Value → List Char → Prop where
  | longBasic {tail chars rest : List Char} :
    readLongBasic false (skipLineEnd tail) = some (chars, rest) →
    ValueStep fuel depth ('"' :: '"' :: '"' :: tail) (.string (String.ofList chars)) rest
  | basic {tail chars rest : List Char} :
    NoQuotes '"' tail → readBasic tail = some (chars, rest) →
    ValueStep fuel depth ('"' :: tail) (.string (String.ofList chars)) rest
  | longLiteral {tail chars rest : List Char} :
    readLongLiteral (skipLineEnd tail) = some (chars, rest) →
    ValueStep fuel depth ('\'' :: '\'' :: '\'' :: tail) (.string (String.ofList chars)) rest
  | literal {tail chars rest : List Char} :
    NoQuotes '\'' tail → readLiteral tail = some (chars, rest) →
    ValueStep fuel depth ('\'' :: tail) (.string (String.ofList chars)) rest
  | array {tail rest : List Char} {elements : List Value} :
    depth + 1 < depthLimit → readElements fuel (depth + 1) tail = some (elements, rest) →
    ValueStep fuel depth ('[' :: tail) (.array elements) rest
  | emptyTable {tail rest : List Char} :
    depth + 1 < depthLimit → skipBlanks tail = '\x7d' :: rest →
    ValueStep fuel depth ('\x7b' :: tail) (.table .inline []) rest
  | table {tail rest : List Char} {assignments : List (Key × Value)} {members : Table} :
    depth + 1 < depthLimit → (skipBlanks tail).head? ≠ some '\x7d' →
    readAssignments fuel (depth + 1) (skipBlanks tail) = some (assignments, rest) →
    Table.ofAssignments assignments = some members →
    ValueStep fuel depth ('\x7b' :: tail) (.table .inline members) rest
  | bare {chars : List Char} {v : Value} :
    (∀ ch ∈ ['"', '\'', '[', '\x7b'], chars.head? ≠ some ch) →
    bareValue? (splitBare chars).1 = some v → ValueStep fuel depth chars v (splitBare chars).2

inductive ElementsStep (fuel depth : Nat) : List Char → List Value → List Char → Prop where
  | nil {chars rest : List Char} :
    skipFiller false chars = ']' :: rest → ElementsStep fuel depth chars [] rest
  | last {chars tail rest : List Char} {v : Value} :
    (skipFiller false chars).head? ≠ some ']' →
    readValue fuel depth (skipFiller false chars) = some (v, tail) →
    skipFiller false tail = ']' :: rest → ElementsStep fuel depth chars [v] rest
  | cons {chars tail tail' rest : List Char} {v : Value} {elements : List Value} :
    (skipFiller false chars).head? ≠ some ']' →
    readValue fuel depth (skipFiller false chars) = some (v, tail) →
    skipFiller false tail = ',' :: tail' → readElements fuel depth tail' = some (elements, rest) →
    ElementsStep fuel depth chars (v :: elements) rest

inductive AssignmentsStep (fuel depth : Nat) :
    List Char → List (Key × Value) → List Char → Prop where
  | last {chars tail tail' rest : List Char} {key : Key} {v : Value} :
    readKey (depthLimit - 1) chars = some (key, '=' :: tail) →
    readValue fuel depth (skipBlanks tail) = some (v, tail') →
    skipBlanks tail' = '\x7d' :: rest → AssignmentsStep fuel depth chars [(key, v)] rest
  | cons {chars tail tail' tail'' rest : List Char} {key : Key} {v : Value}
    {assignments : List (Key × Value)} :
    readKey (depthLimit - 1) chars = some (key, '=' :: tail) →
    readValue fuel depth (skipBlanks tail) = some (v, tail') →
    skipBlanks tail' = ',' :: tail'' →
    readAssignments fuel depth tail'' = some (assignments, rest) →
    AssignmentsStep fuel depth chars ((key, v) :: assignments) rest

/-- A dotted key. -/
inductive KeyStep (limit : Nat) : List Char → Key → List Char → Prop where
  | last {chars tail : List Char} {name : String} :
    readName (skipBlanks chars) = some (name, tail) → (skipBlanks tail).head? ≠ some '.' →
    KeyStep limit chars ⟨[], name⟩ (skipBlanks tail)
  | dot {chars tail tail' rest : List Char} {name : String} {key : Key} :
    readName (skipBlanks chars) = some (name, tail) → skipBlanks tail = '.' :: tail' →
    readKey limit tail' = some (key, rest) →
    KeyStep limit chars ⟨name :: key.path, key.name⟩ rest

inductive StatementStep : List Char → Statement → List Char → Prop where
  | element {tail tail' rest : List Char} {key : Key} :
    readKey (depthLimit - 1) tail = some (key, ']' :: ']' :: tail') →
    endLine? tail' = some rest → StatementStep ('[' :: '[' :: tail) (.element key) rest
  | table {tail tail' rest : List Char} {key : Key} :
    tail.head? ≠ some '[' → readKey (depthLimit - 1) tail = some (key, ']' :: tail') →
    endLine? tail' = some rest → StatementStep ('[' :: tail) (.table key) rest
  | assign {chars tail tail' rest : List Char} {key : Key} {v : Value} :
    chars.head? ≠ some '[' → readKey (depthLimit - 1) chars = some (key, '=' :: tail) →
    readValue (2 * (skipBlanks tail).length + 2) 0 (skipBlanks tail) = some (v, tail') →
    endLine? tail' = some rest → StatementStep chars (.assign key v) rest

theorem head?_ne_some_iff {ch : Char} {chars : List Char} :
    chars.head? ≠ some ch ↔ ∀ tail, chars ≠ ch :: tail := by
  cases chars <;> simp

theorem exactly?_eq_some_iff {ch : Char} {chars rest : List Char} :
    exactly? ch chars = some rest ↔ chars = ch :: rest := by
  cases chars with
  | nil => simp [exactly?]
  | cons ch' chars => simp [exactly?]

variable {fuel depth : Nat}

theorem readValue_eq_some_iff {chars rest : List Char} {v : Value} :
    readValue (fuel + 1) depth chars = some (v, rest) ↔ ValueStep fuel depth chars v rest := by
  constructor
  · intro h
    rw [readValue.eq_def] at h
    dsimp only at h
    split at h
    · obtain ⟨⟨chars, rest⟩, hRead, hEq⟩ := Option.map_eq_some_iff.mp h
      cases hEq
      exact .longBasic hRead
    · rename_i hQuotes
      obtain ⟨⟨chars, rest⟩, hRead, hEq⟩ := Option.map_eq_some_iff.mp h
      cases hEq
      exact .basic hQuotes hRead
    · obtain ⟨⟨chars, rest⟩, hRead, hEq⟩ := Option.map_eq_some_iff.mp h
      cases hEq
      exact .longLiteral hRead
    · rename_i hQuotes
      obtain ⟨⟨chars, rest⟩, hRead, hEq⟩ := Option.map_eq_some_iff.mp h
      cases hEq
      exact .literal hQuotes hRead
    · split at h
      · rename_i hDepth
        obtain ⟨⟨elements, rest⟩, hRead, hEq⟩ := Option.map_eq_some_iff.mp h
        cases hEq
        exact .array hDepth hRead
      · cases h
    · split at h
      · rename_i hDepth
        split at h
        · rename_i hBrace
          cases h
          exact .emptyTable hDepth hBrace
        · rename_i hOpen
          obtain ⟨⟨assignments, rest⟩, hRead, h⟩ := Option.bind_eq_some_iff.mp h
          obtain ⟨members, hTable, hEq⟩ := Option.bind_eq_some_iff.mp h
          cases hEq
          exact .table hDepth (head?_ne_some_iff.mpr hOpen) hRead hTable
      · cases h
    · rename_i hBasic _ hLiteral hArray hTable
      obtain ⟨v, hBare, hEq⟩ := Option.bind_eq_some_iff.mp h
      cases hEq
      refine .bare (fun ch hCh hHead => ?_) hBare
      obtain ⟨tail, rfl⟩ := List.head?_eq_some_iff.mp hHead
      simp only [List.mem_cons, List.not_mem_nil, or_false] at hCh
      rcases hCh with rfl | rfl | rfl | rfl
      · exact hBasic tail rfl
      · exact hLiteral tail rfl
      · exact hArray tail rfl
      · exact hTable tail rfl
  · intro h
    cases h with
    | longBasic h => rw [readValue, h]; rfl
    | basic hQuotes h => rw [readValue, h]; rfl; exact hQuotes
    | longLiteral h => rw [readValue, h]; rfl
    | literal hQuotes h => rw [readValue, h]; rfl; exact hQuotes
    | array hDepth h => rw [readValue, if_pos hDepth, h]; rfl
    | emptyTable hDepth h => simp [readValue, hDepth, h]
    | table hDepth hOpen h hTable =>
      rw [readValue, if_pos hDepth]
      split
      · rename_i hBrace
        simp [hBrace] at hOpen
      · simp [h, hTable]
    | bare hHead h =>
      rw [readValue]
      · simp [h]
      all_goals
        rintro tail rfl
        simp at hHead

theorem readElements_eq_some_iff {chars rest : List Char} {elements : List Value} :
    readElements (fuel + 1) depth chars = some (elements, rest) ↔
      ElementsStep fuel depth chars elements rest := by
  constructor
  · intro h
    rw [readElements] at h
    split at h
    · rename_i hClose
      cases h
      exact .nil hClose
    · rename_i hOpen
      have hHead := head?_ne_some_iff.mpr hOpen
      obtain ⟨⟨v, tail⟩, hValue, h⟩ := Option.bind_eq_some_iff.mp h
      dsimp only at h
      split at h
      · rename_i hComma
        obtain ⟨⟨elements, rest⟩, hRest, hEq⟩ := Option.bind_eq_some_iff.mp h
        cases hEq
        exact .cons hHead hValue hComma hRest
      · rename_i hClose
        cases h
        exact .last hHead hValue hClose
      · cases h
  · intro h
    cases h with
    | nil hClose => simp [readElements, hClose]
    | last hHead hValue hClose =>
      rw [readElements]
      split
      · rename_i hEmpty
        simp [hEmpty] at hHead
      · simp [hValue, hClose]
    | cons hHead hValue hComma hRest =>
      rw [readElements]
      split
      · rename_i hEmpty
        simp [hEmpty] at hHead
      · simp [hValue, hComma, hRest]

theorem readAssignments_eq_some_iff {chars rest : List Char} {assignments : List (Key × Value)} :
    readAssignments (fuel + 1) depth chars = some (assignments, rest) ↔
      AssignmentsStep fuel depth chars assignments rest := by
  constructor
  · intro h
    rw [readAssignments] at h
    obtain ⟨⟨key, tail⟩, hKey, h⟩ := Option.bind_eq_some_iff.mp h
    dsimp only at h
    obtain ⟨tail, hEquals, h⟩ := Option.bind_eq_some_iff.mp h
    obtain ⟨⟨v, tail'⟩, hValue, h⟩ := Option.bind_eq_some_iff.mp h
    have hTail := exactly?_eq_some_iff.mp hEquals
    dsimp only at h
    split at h
    · rename_i hComma
      obtain ⟨⟨assignments, rest⟩, hRest, hEq⟩ := Option.bind_eq_some_iff.mp h
      cases hEq
      exact .cons (hTail ▸ hKey) hValue hComma hRest
    · rename_i hClose
      cases h
      exact .last (hTail ▸ hKey) hValue hClose
    · cases h
  · intro h
    cases h with
    | last hKey hValue hClose => simp [readAssignments, hKey, exactly?, hValue, hClose]
    | cons hKey hValue hComma hRest =>
      simp [readAssignments, hKey, exactly?, hValue, hComma, hRest]

theorem readKey_eq_some_iff {limit : Nat} {chars rest : List Char} {key : Key} :
    readKey (limit + 1) chars = some (key, rest) ↔ KeyStep limit chars key rest := by
  constructor
  · intro h
    rw [readKey] at h
    obtain ⟨⟨name, tail⟩, hName, h⟩ := Option.bind_eq_some_iff.mp h
    dsimp only at h
    split at h
    · rename_i hDot
      obtain ⟨⟨key, rest⟩, hRest, hEq⟩ := Option.bind_eq_some_iff.mp h
      cases hEq
      exact .dot hName hDot hRest
    · rename_i hNoDot
      cases h
      exact .last hName (head?_ne_some_iff.mpr hNoDot)
  · intro h
    cases h with
    | last hName hHead =>
      rw [readKey, hName]
      simp only [Option.bind_eq_bind, Option.bind_some]
      split
      · rename_i hDot
        simp [hDot] at hHead
      · rfl
    | dot hName hDot hRest => simp [readKey, hName, hDot, hRest]

theorem readStatement_eq_some_iff {chars rest : List Char} {statement : Statement} :
    readStatement chars = some (statement, rest) ↔ StatementStep chars statement rest := by
  constructor
  · intro h
    rw [readStatement.eq_def] at h
    split at h
    · obtain ⟨⟨key, tail⟩, hKey, h⟩ := Option.bind_eq_some_iff.mp h
      dsimp only at h
      obtain ⟨tail', hFirst, h⟩ := Option.bind_eq_some_iff.mp h
      obtain ⟨tail'', hSecond, h⟩ := Option.bind_eq_some_iff.mp h
      obtain ⟨rest, hEnd, hEq⟩ := Option.bind_eq_some_iff.mp h
      obtain rfl := exactly?_eq_some_iff.mp hFirst
      obtain rfl := exactly?_eq_some_iff.mp hSecond
      cases hEq
      exact .element hKey hEnd
    · rename_i hSingle
      obtain ⟨⟨key, tail⟩, hKey, h⟩ := Option.bind_eq_some_iff.mp h
      dsimp only at h
      obtain ⟨tail', hFirst, h⟩ := Option.bind_eq_some_iff.mp h
      obtain ⟨rest, hEnd, hEq⟩ := Option.bind_eq_some_iff.mp h
      obtain rfl := exactly?_eq_some_iff.mp hFirst
      cases hEq
      exact .table (head?_ne_some_iff.mpr hSingle) hKey hEnd
    · rename_i hHeader
      obtain ⟨⟨key, tail⟩, hKey, h⟩ := Option.bind_eq_some_iff.mp h
      dsimp only at h
      obtain ⟨tail', hEquals, h⟩ := Option.bind_eq_some_iff.mp h
      obtain ⟨⟨v, tail⟩, hValue, h⟩ := Option.bind_eq_some_iff.mp h
      obtain ⟨rest, hEnd, hEq⟩ := Option.bind_eq_some_iff.mp h
      obtain rfl := exactly?_eq_some_iff.mp hEquals
      cases hEq
      exact .assign (head?_ne_some_iff.mpr hHeader) hKey hValue hEnd
  · intro h
    cases h with
    | element hKey hEnd => simp [readStatement, hKey, exactly?, hEnd]
    | table hSingle hKey hEnd =>
      rw [readStatement]
      · simp [hKey, exactly?, hEnd]
      · exact head?_ne_some_iff.mp hSingle
    | assign hHeader hKey hValue hEnd =>
      rw [readStatement]
      · simp [hKey, exactly?, hValue, hEnd]
      · rintro tail rfl
        simp at hHeader
      · rintro tail rfl
        simp at hHeader

/-! ## Ends of lines -/

/-- The text from the end of its first line on, if this line has but blanks and a comment. -/
def lineEnd (chars : List Char) : List Char :=
  match skipBlanks chars with
  | '#' :: rest => rest.dropWhile isPlain
  | rest => rest

/-- The text behind the end of a line. -/
def behindLine? : List Char → Option (List Char)
  | [] => some []
  | '\n' :: rest => some rest
  | '\r' :: '\n' :: rest => some rest
  | _ => none

theorem endLine?_eq (chars : List Char) : endLine? chars = behindLine? (lineEnd chars) := rfl

theorem endLine?_eq_some_iff {chars rest : List Char} : endLine? chars = some rest ↔
    lineEnd chars = [] ∧ rest = [] ∨ lineEnd chars = '\n' :: rest ∨
      lineEnd chars = '\r' :: '\n' :: rest := by
  rw [endLine?_eq]
  constructor
  · intro h
    rw [behindLine?.eq_def] at h
    split at h
    · rename_i hLine
      cases h
      exact .inl ⟨hLine, rfl⟩
    · rename_i hLine
      cases h
      exact .inr (.inl hLine)
    · rename_i hLine
      cases h
      exact .inr (.inr hLine)
    · cases h
  · rintro (⟨hLine, rfl⟩ | hLine | hLine) <;> simp [hLine, behindLine?]

/-! ## First characters -/

theorem isPlain_of_isAlphanum {ch : Char} (h : ch.isAlphanum = true) : isPlain ch = true := by
  have hAscii : ∀ code < 128, (Char.ofNat code).isAlphanum = true →
      isPlain (Char.ofNat code) = true := by decide +kernel
  by_cases hCode : ch.toNat < 128
  · rw [← Char.ofNat_toNat ch] at h ⊢
    exact hAscii ch.toNat hCode h
  · simp [isPlain]
    omega

theorem isPlain_of_isNameChar {ch : Char} (h : isNameChar ch = true) : isPlain ch = true := by
  simp only [isNameChar, Bool.or_eq_true, decide_eq_true_eq] at h
  rcases h with (h | rfl) | rfl
  · exact isPlain_of_isAlphanum h
  · rfl
  · rfl

theorem isPlain_of_isBareChar {ch : Char} (h : isBareChar ch = true) : isPlain ch = true := by
  simp only [isBareChar, Bool.or_eq_true, decide_eq_true_eq] at h
  rcases h with ((((h | rfl) | rfl) | rfl) | rfl) | rfl
  · exact isPlain_of_isAlphanum h
  all_goals rfl

/-- The text does not begin with a line end or a character that no line may have. -/
def BeginsPlain (chars : List Char) : Prop := ∃ ch tail, chars = ch :: tail ∧ isPlain ch = true

theorem BeginsPlain.of_takeWhile {p : Char → Bool} {chars : List Char}
    (h : chars.takeWhile p ≠ []) (hp : ∀ ch, p ch = true → isPlain ch = true) :
    BeginsPlain chars := by
  cases chars with
  | nil => exact absurd rfl h
  | cons ch tail =>
    refine ⟨ch, tail, rfl, hp ch ?_⟩
    cases hCh : p ch with
    | true => rfl
    | false => simp [hCh] at h

theorem beginsPlain_of_readValue {fuel depth : Nat} {chars rest : List Char} {v : Value}
    (h : readValue fuel depth chars = some (v, rest)) : BeginsPlain chars := by
  cases fuel with
  | zero => cases h
  | succ fuel =>
    rw [readValue_eq_some_iff] at h
    cases h with
    | longBasic | basic | longLiteral | literal | array | emptyTable | table =>
      exact ⟨_, _, rfl, rfl⟩
    | bare hHead hBare =>
      refine .of_takeWhile (fun hNil => ?_) fun ch => isPlain_of_isBareChar
      have hParts : ∀ ch tail, ¬Parts chars ch tail := by
        intro ch tail hParts
        have hDate := hParts.isDate
        rw [hNil] at hDate
        cases hDate
      rw [splitBare_eq hParts, hNil] at hBare
      cases hBare

theorem beginsPlain_of_readName {chars rest : List Char} {name : String}
    (h : readName chars = some (name, rest)) : BeginsPlain chars := by
  rw [readName.eq_def] at h
  split at h
  · exact ⟨_, _, rfl, rfl⟩
  · exact ⟨_, _, rfl, rfl⟩
  · dsimp only at h
    split at h
    · cases h
    · rename_i hName
      exact .of_takeWhile hName fun ch => isPlain_of_isNameChar

theorem beginsPlain_of_skipBlanks {chars : List Char} (h : BeginsPlain (skipBlanks chars)) :
    BeginsPlain chars := by
  cases chars with
  | nil => exact h
  | cons ch tail =>
    by_cases hBlank : isBlank ch = true
    · refine ⟨ch, tail, rfl, ?_⟩
      simp only [isBlank, Bool.or_eq_true, decide_eq_true_eq] at hBlank
      rcases hBlank with rfl | rfl <;> rfl
    · simpa [skipBlanks, hBlank] using h

theorem beginsPlain_of_readKey {limit : Nat} {chars rest : List Char} {key : Key}
    (h : readKey limit chars = some (key, rest)) : BeginsPlain chars := by
  cases limit with
  | zero => cases h
  | succ limit =>
    rw [readKey_eq_some_iff] at h
    cases h with
    | last hName => exact beginsPlain_of_skipBlanks (beginsPlain_of_readName hName)
    | dot hName => exact beginsPlain_of_skipBlanks (beginsPlain_of_readName hName)

theorem beginsPlain_of_readStatement {chars rest : List Char} {statement : Statement}
    (h : readStatement chars = some (statement, rest)) : BeginsPlain chars := by
  rw [readStatement_eq_some_iff] at h
  cases h with
  | element | table => exact ⟨_, _, rfl, rfl⟩
  | assign _ hKey => exact beginsPlain_of_readKey hKey

/-! ## Documents -/

/-- The text behind a byte order mark, if there is one. -/
def skipMark : List Char → List Char
  | '\uFEFF' :: rest => rest
  | chars => chars

theorem ofString?_eq_some_iff {text : String} {root : Table} :
    Table.ofString? text = some root ↔ ∃ statements,
      readStatements ((skipMark text.toList).length + 1) (skipMark text.toList) = some statements ∧
        Table.ofStatements statements = some root := Option.bind_eq_some_iff

end SignedDirectory.Toml
