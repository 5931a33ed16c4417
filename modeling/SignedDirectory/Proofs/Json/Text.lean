import Mathlib.Data.List.TakeDrop
import SignedDirectory.Json.Source
import SignedDirectory.Json.Value

/-!
# Reading back what is written

`Value.source` is what a written value is for a reader. The text of any value without spaces is read as
the source of that value (`Document.ofString_compact`): numbers end where their digits end, strings are
read through their escapes, and twice the length of a text is fuel enough for it.
-/

namespace SignedDirectory.Json

/-! ## Numbers -/

theorem isDigit_of_mem_decimal {n : Nat} {ch : Char} (h : ch ∈ decimal n) :
    Decimal.isDigit ch = true := by
  have hDigit := Nat.isDigit_of_mem_toDigits (by decide) (by decide) h
  simpa [Decimal.isDigit, Char.isDigit, Char.le_def] using hDigit

theorem ofDigits_decimal (n : Nat) : Decimal.ofDigits (decimal n) = n :=
  Nat.ofDigitChars_ten_toDigits

theorem decimal_ne_nil (n : Nat) : decimal n ≠ [] := Nat.toDigits_ne_nil

/-- Only zero is written with a zero in front. -/
theorem eq_zero_of_decimal {n : Nat} (h : (decimal n).head? = some '0') : n = 0 := by
  induction n using Nat.strongRecOn with
  | ind n ih =>
    rw [decimal, Nat.toDigits_eq_if (by decide)] at h
    split at h
    · rename_i hSmall
      have hAll : ∀ n < 10, some n.digitChar = some '0' → n = 0 := by decide
      exact hAll n hSmall h
    · rename_i hLarge
      rw [List.head?_append, Option.or_of_isSome (by simp [Nat.toDigits_ne_nil])] at h
      have hZero := ih (n / 10) (by omega) h
      omega

theorem isSpace_of_isDigit {ch : Char} (h : Decimal.isDigit ch = true) : isSpace ch = false := by
  apply Bool.eq_false_iff.mpr
  intro hSpace
  have hCases : ((ch = ' ' ∨ ch = '\n') ∨ ch = '\t') ∨ ch = '\r' := by
    simpa [isSpace] using hSpace
  rcases hCases with ((rfl | rfl) | rfl) | rfl <;> cases h

/-- What may stand behind a value that is written without spaces. -/
def Closes (rest : List Char) : Prop := ∀ ch ∈ rest.head?, ch = ',' ∨ ch = ']' ∨ ch = '}'

theorem readDigits_append {digits rest : List Char} (hNe : digits ≠ [])
    (hDigits : ∀ ch ∈ digits, Decimal.isDigit ch = true)
    (hRest : ∀ ch ∈ rest.head?, Decimal.isDigit ch = false) :
    readDigits (digits ++ rest) = some (digits, rest) := by
  have hSpan : (digits ++ rest).span Decimal.isDigit = (digits, rest) := by
    rw [List.span_eq_takeWhile_dropWhile, List.takeWhile_append_of_pos hDigits,
      List.dropWhile_append_of_pos hDigits]
    cases rest with
    | nil => simp
    | cons ch rest => simp [hRest ch rfl]
  rw [readDigits, hSpan]
  cases digits with
  | nil => exact absurd rfl hNe
  | cons ch digits => rfl

theorem readInteger_decimal (n : Nat) {rest : List Char}
    (hRest : ∀ ch ∈ rest.head?, Decimal.isDigit ch = false) :
    readInteger (decimal n ++ rest) = some (decimal n, rest) := by
  rw [readInteger, readDigits_append (decimal_ne_nil n) (fun _ => isDigit_of_mem_decimal) hRest]
  split
  · rename_i second more _ h
    obtain ⟨hDigits, -⟩ := Prod.mk.inj (Option.some.inj h)
    obtain rfl := eq_zero_of_decimal (by rw [hDigits]; rfl)
    cases hDigits
  · rfl

namespace Source

/-- The number that is read from the digits of a natural number. -/
def ofNat (n : Nat) : Source :=
  (ofInteger? false n).getD
    (if (Decimal.Scaled.ofDigits (decimal n) [] 0).overflows then .unreadable else .real)

theorem ofNat_toNat (n : UInt64) : ofNat n.toNat = .natural n := by
  have hSize : n.toNat < UInt64.size := n.toNat_lt
  simp [ofNat, ofInteger?, hSize]

end Source

theorem readNumber_decimal (n : Nat) {rest : List Char} (hRest : Closes rest) :
    readNumber false (decimal n ++ rest) = some (Source.ofNat n, rest) := by
  have hInteger : readInteger (decimal n ++ rest) = some (decimal n, rest) := by
    apply readInteger_decimal
    intro ch hCh
    rcases hRest ch hCh with rfl | rfl | rfl <;> rfl
  have hFraction : readFraction rest = some ([], rest) := by
    cases rest with
    | nil => rfl
    | cons ch rest => rcases hRest ch rfl with rfl | rfl | rfl <;> rfl
  have hExponent : readExponent rest = some (none, rest) := by
    cases rest with
    | nil => rfl
    | cons ch rest => rcases hRest ch rfl with rfl | rfl | rfl <;> rfl
  simp [readNumber, hInteger, hFraction, hExponent, ofDigits_decimal, Source.ofNat]

/-! ## Strings -/

theorem ofHexDigits?_control :
    ∀ n < 32, Bytes.ofHexDigits? ['0', '0', Bytes.hexDigit (n / 16), Bytes.hexDigit (n % 16)] = some n := by
  decide

section

variable {rest after : List Char} {pieces : List Piece}

theorem readPieces_short {short ch : Char} (hShort : shortEscape? short = some ch)
    (h : readPieces (fun _ => false) rest = some (pieces, after)) :
    readPieces (fun _ => false) ('\\' :: short :: rest) = some (.char ch :: pieces, after) := by
  have hNotHex : short ≠ 'u' := by
    rintro rfl
    cases hShort
  rw [readPieces.eq_4 _ _ _ fun _ _ _ _ _ hHex _ => hNotHex hHex, hShort, h]
  rfl

theorem readPieces_control {ch : Char} (hControl : ch.toNat < 0x20)
    (h : readPieces (fun _ => false) rest = some (pieces, after)) :
    readPieces (fun _ => false) ('\\' :: 'u' :: '0' :: '0' :: Bytes.hexDigit (ch.toNat / 16) ::
      Bytes.hexDigit (ch.toNat % 16) :: rest) = some (.char ch :: pieces, after) := by
  have hPiece : Piece.ofHex? '0' '0' (Bytes.hexDigit (ch.toNat / 16))
      (Bytes.hexDigit (ch.toNat % 16)) = some (.char ch) := by
    have hSmall : ¬(0xD800 ≤ ch.toNat ∧ ch.toNat < 0xE000) := by omega
    simp [Piece.ofHex?, ofHexDigits?_control ch.toNat hControl, hSmall]
  rw [readPieces, hPiece, h]
  rfl

/-- However a character is written in a string, it is read as itself. -/
theorem readPieces_escapeChar (ch : Char)
    (h : readPieces (fun _ => false) rest = some (pieces, after)) :
    readPieces (fun _ => false) (escapeChar ch ++ rest) = some (.char ch :: pieces, after) := by
  rw [escapeChar]
  iterate 7
    split
    · subst_vars
      exact readPieces_short rfl h
  split
  · rename_i hControl
    exact readPieces_control hControl h
  · rename_i hQuote hBackslash _ _ _ _ _ hPlain
    rw [List.singleton_append, readPieces.eq_5 _ _ _ hQuote (fun _ _ _ _ _ hEq _ => hBackslash hEq)
      (fun _ _ hEq _ => hBackslash hEq), if_neg hPlain, h]
    rfl

end

theorem readPieces_quote (chars rest : List Char) :
    readPieces (fun _ => false) (chars.flatMap escapeChar ++ '"' :: rest) =
      some (chars.map .char, rest) := by
  induction chars with
  | nil => rfl
  | cons ch chars ih =>
    rw [List.flatMap_cons, List.append_assoc]
    exact readPieces_escapeChar ch ih

theorem joinPieces_char (chars : List Char) : joinPieces (chars.map .char) = some chars := by
  induction chars with
  | nil => rfl
  | cons ch chars ih =>
    rw [List.map_cons, joinPieces, ih]
    rfl

theorem readString_quote (s : String) (rest : List Char) :
    readString (fun _ => false) (s.toList.flatMap escapeChar ++ '"' :: rest) =
      some (some s, rest) := by
  simp [readString, readPieces_quote, joinPieces_char]

/-! ## Values -/

mutual

/-- What a written value is for a reader. -/
def Value.source : Value → Source
  | .null => .null
  | .bool b => .bool b
  | .number n => .ofNat n
  | .string s => .string s
  | .array elements => .array (elementSources elements)
  | .object members => .object (memberSources members)

def elementSources : List Value → List Source
  | [] => []
  | v :: rest => v.source :: elementSources rest

def memberSources : List (String × Value) → List (Label × Source)
  | [] => []
  | (name, v) :: rest => (.name name, v.source) :: memberSources rest

end

theorem skipSpace_cons {ch : Char} (h : isSpace ch = false) (rest : List Char) :
    skipSpace (ch :: rest) = ch :: rest := by
  rw [skipSpace, List.dropWhile_cons_of_neg (by simp [h])]

/-- No value is written with a space or a closing bracket in front. -/
theorem exists_writeCompact_cons (v : Value) :
    ∃ ch rest, writeCompact v = ch :: rest ∧ isSpace ch = false ∧ ch ≠ ']' := by
  cases v with
  | null => exact ⟨'n', _, rfl, rfl, by decide⟩
  | bool b =>
    cases b
    · exact ⟨'f', _, rfl, rfl, by decide⟩
    · exact ⟨'t', _, rfl, rfl, by decide⟩
  | number n =>
    obtain ⟨ch, rest, hDigits⟩ := List.exists_cons_of_ne_nil (decimal_ne_nil n)
    have hDigit := isDigit_of_mem_decimal (hDigits ▸ List.mem_cons_self)
    refine ⟨ch, rest, hDigits, ?_, ?_⟩
    · exact isSpace_of_isDigit hDigit
    · rintro rfl
      cases hDigit
  | string s => exact ⟨'"', _, rfl, rfl, by decide⟩
  | array elements => cases elements <;> exact ⟨'[', _, rfl, rfl, by decide⟩
  | object members => cases members <;> exact ⟨'\x7b', _, rfl, rfl, by decide⟩

theorem closes_writeElements (elements : List Value) (rest : List Char) :
    Closes (writeElements elements ++ rest) := by
  cases elements <;> simp [Closes, writeElements]

theorem closes_writeMembers (members : List (String × Value)) (rest : List Char) :
    Closes (writeMembers members ++ rest) := by
  obtain _ | ⟨⟨name, v⟩, members⟩ := members <;> simp [Closes, writeMembers]

theorem readValue_decimal (n fuel : Nat) {rest : List Char} (hRest : Closes rest) :
    readValue (fun _ => false) (fuel + 1) (decimal n ++ rest) = (.ofNat n, some rest) := by
  have hNumber := readNumber_decimal n hRest
  obtain ⟨ch, digits, hDigits⟩ := List.exists_cons_of_ne_nil (decimal_ne_nil n)
  have hDigit := isDigit_of_mem_decimal (hDigits ▸ List.mem_cons_self)
  rw [hDigits, List.cons_append] at hNumber ⊢
  rw [readValue, skipSpace_cons (isSpace_of_isDigit hDigit)]
  split
  case h_8 => rw [hNumber]; rfl
  all_goals
    rename_i h
    obtain ⟨rfl, -⟩ := List.cons.inj h
    cases hDigit

section

variable {fuel : Nat} {chars chars' rest : List Char} {source : Source}

theorem readValue_string (s : String) (fuel : Nat) (rest : List Char) :
    readValue (fun _ => false) (fuel + 1) (quote s ++ rest) = (.string s, some rest) := by
  rw [quote, List.cons_append, List.append_assoc, readValue, skipSpace_cons rfl]
  change orBroken ((readString _ (_ ++ '"' :: rest)).map _) = _
  rw [readString_quote]
  rfl

theorem readValue_array {elements : List Source} {ch : Char} (hSpace : isSpace ch = false)
    (hClose : ch ≠ ']')
    (h : readElements (fun _ => false) fuel (ch :: chars) = (elements, some rest)) :
    readValue (fun _ => false) (fuel + 1) ('[' :: ch :: chars) = (.array elements, some rest) := by
  rw [readValue, skipSpace_cons rfl]
  simp only [skipSpace_cons hSpace]
  split
  · rename_i hCons
    exact absurd (List.cons.inj hCons).1 hClose
  · rw [h]

theorem readElements_last (h : readValue (fun _ => false) fuel chars = (source, some (']' :: rest))) :
    readElements (fun _ => false) (fuel + 1) chars = ([source], some rest) := by
  rw [readElements, h]
  rfl

theorem readElements_more {elements : List Source}
    (hFirst : readValue (fun _ => false) fuel chars = (source, some (',' :: chars')))
    (hMore : readElements (fun _ => false) fuel chars' = (elements, some rest)) :
    readElements (fun _ => false) (fuel + 1) chars = (source :: elements, some rest) := by
  rw [readElements, hFirst]
  simp only [skipSpace_cons (show isSpace ',' = false from rfl), hMore]

theorem readValue_object {members : List (Label × Source)}
    (h : readMembers (fun _ => false) fuel ('"' :: chars) = (members, some rest)) :
    readValue (fun _ => false) (fuel + 1) ('\x7b' :: '"' :: chars) = (.object members, some rest) := by
  rw [readValue, skipSpace_cons rfl]
  simp only [skipSpace_cons (show isSpace '"' = false from rfl)]
  split
  · rename_i hCons
    exact absurd (List.cons.inj hCons).1 (by decide)
  · rw [h]

theorem readMembers_last (name : String)
    (h : readValue (fun _ => false) fuel chars = (source, some ('\x7d' :: rest))) :
    readMembers (fun _ => false) (fuel + 1) (quote name ++ ':' :: chars) =
      ([(.name name, source)], some rest) := by
  rw [quote, List.cons_append, List.append_assoc, readMembers, skipSpace_cons rfl]
  simp only [List.singleton_append, readString_quote, skipSpace_cons (show isSpace ':' = false from rfl), h]
  rfl

theorem readMembers_more {members : List (Label × Source)} (name : String)
    (hFirst : readValue (fun _ => false) fuel chars = (source, some (',' :: chars')))
    (hMore : readMembers (fun _ => false) fuel chars' = (members, some rest)) :
    readMembers (fun _ => false) (fuel + 1) (quote name ++ ':' :: chars) =
      ((.name name, source) :: members, some rest) := by
  rw [quote, List.cons_append, List.append_assoc, readMembers, skipSpace_cons rfl]
  simp only [List.singleton_append, readString_quote, skipSpace_cons (show isSpace ':' = false from rfl),
    skipSpace_cons (show isSpace ',' = false from rfl), hFirst, hMore]
  rfl

end

mutual

/-- Twice the length of its text is fuel enough to read a value. -/
theorem readValue_writeCompact : ∀ (v : Value) (fuel : Nat) (rest : List Char),
    2 * (writeCompact v).length ≤ fuel → Closes rest →
      readValue (fun _ => false) fuel (writeCompact v ++ rest) = (v.source, some rest)
  | v, 0, rest, hFuel, _ => by
    obtain ⟨ch, chars, hText, -⟩ := exists_writeCompact_cons v
    rw [hText, List.length_cons] at hFuel
    omega
  | .null, fuel + 1, rest, _, _ => rfl
  | .bool true, fuel + 1, rest, _, _ => rfl
  | .bool false, fuel + 1, rest, _, _ => rfl
  | .number n, fuel + 1, rest, _, hRest => readValue_decimal n fuel hRest
  | .string s, fuel + 1, rest, _, _ => readValue_string s fuel rest
  | .array [], fuel + 1, rest, _, _ => rfl
  | .array (v :: elements), fuel + 1, rest, hFuel, _ => by
    obtain ⟨ch, chars, hText, hSpace, hClose⟩ := exists_writeCompact_cons v
    have hElements := readElements_writeElements v elements fuel rest (by
      simp only [writeCompact, List.length_cons, List.length_append] at hFuel ⊢
      omega)
    rw [writeCompact, List.cons_append, List.append_assoc]
    rw [hText, List.cons_append] at hElements ⊢
    exact readValue_array hSpace hClose hElements
  | .object [], fuel + 1, rest, _, _ => rfl
  | .object ((name, v) :: members), fuel + 1, rest, hFuel, _ => by
    have hMembers := readMembers_writeMembers name v members fuel rest (by
      simp only [writeCompact, List.length_cons, List.length_append] at hFuel ⊢
      omega)
    rw [writeCompact, List.cons_append, List.append_assoc, List.cons_append, List.append_assoc]
    exact readValue_object hMembers

theorem readElements_writeElements : ∀ (v : Value) (elements : List Value) (fuel : Nat)
    (rest : List Char), 2 * (writeCompact v ++ writeElements elements).length < fuel →
      readElements (fun _ => false) fuel (writeCompact v ++ (writeElements elements ++ rest)) =
        (elementSources (v :: elements), some rest)
  | _, _, 0, _, hFuel => absurd hFuel (Nat.not_lt_zero _)
  | v, [], fuel + 1, rest, hFuel => by
    refine readElements_last (readValue_writeCompact v fuel _ ?_ (closes_writeElements [] rest))
    rw [List.length_append] at hFuel
    omega
  | v, w :: elements, fuel + 1, rest, hFuel => by
    simp only [writeElements, List.length_cons, List.length_append] at hFuel
    have hFirst := readValue_writeCompact v fuel (writeElements (w :: elements) ++ rest) (by omega)
      (closes_writeElements _ _)
    have hMore := readElements_writeElements w elements fuel rest (by
      rw [List.length_append]
      omega)
    rw [writeElements, List.cons_append, List.append_assoc] at hFirst ⊢
    exact readElements_more hFirst hMore

theorem readMembers_writeMembers : ∀ (name : String) (v : Value) (members : List (String × Value))
    (fuel : Nat) (rest : List Char),
    2 * (quote name ++ ':' :: (writeCompact v ++ writeMembers members)).length < fuel →
      readMembers (fun _ => false) fuel
          (quote name ++ ':' :: (writeCompact v ++ (writeMembers members ++ rest))) =
        (memberSources ((name, v) :: members), some rest)
  | _, _, _, 0, _, hFuel => absurd hFuel (Nat.not_lt_zero _)
  | name, v, [], fuel + 1, rest, hFuel => by
    refine readMembers_last name
      (readValue_writeCompact v fuel _ ?_ (closes_writeMembers [] rest))
    simp only [List.length_cons, List.length_append] at hFuel
    omega
  | name, v, (name', w) :: members, fuel + 1, rest, hFuel => by
    simp only [writeMembers, List.length_cons, List.length_append] at hFuel
    have hFirst := readValue_writeCompact v fuel (writeMembers ((name', w) :: members) ++ rest)
      (by omega) (closes_writeMembers _ _)
    have hMore := readMembers_writeMembers name' w members fuel rest (by
      simp only [List.length_cons, List.length_append]
      omega)
    rw [writeMembers] at hFirst ⊢
    simp only [List.cons_append, List.append_assoc] at hFirst ⊢
    exact readMembers_more name hFirst hMore

end

/-- A text without spaces is read as the value that it was written for. -/
theorem Document.ofString_compact (v : Value) : Document.ofString v.compact = ⟨v.source, true⟩ := by
  have hRead := readValue_writeCompact v (2 * (writeCompact v).length + 2) [] (by omega)
    (by simp [Closes])
  rw [List.append_nil] at hRead
  rw [ofString, Value.compact, String.toList_ofList, ofChars, hRead]
  rfl

end SignedDirectory.Json
