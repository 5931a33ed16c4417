import SignedDirectory.Proofs.Toml.Steps

/-!
# Strings over several lines in a document

`longStrings` collects the strings over several lines among the values of a document, each with the text
behind its opening quotes and what was read there. It goes where the reader of values goes, and so takes
no quotes in comments, in keys or in other strings for such a string.
-/

namespace SignedDirectory.Toml

/-- With escapes or without. -/
inductive LongForm where
  | basic
  | literal

namespace LongForm

def quote : LongForm → Char
  | .basic => '"'
  | .literal => '\''

/-- The string behind opening quotes, and what follows its closing quotes. -/
def read : LongForm → List Char → Option (List Char × List Char)
  | .basic, tail => readLongBasic false (skipLineEnd tail)
  | .literal, tail => readLongLiteral (skipLineEnd tail)

end LongForm

/-- A string over several lines where it stands: its characters are between `tail`, which begins behind the
opening quotes, and `rest`, which begins behind the closing quotes. -/
structure LongString where
  form : LongForm
  tail : List Char
  chars : List Char
  rest : List Char
  read_eq : form.read tail = some (chars, rest)

def LongForm.strings (form : LongForm) (tail : List Char) : List LongString :=
  match h : form.read tail with
  | some (chars, rest) => [⟨form, tail, chars, rest, h⟩]
  | none => []

theorem LongForm.strings_eq {form : LongForm} {tail chars rest : List Char}
    (h : form.read tail = some (chars, rest)) : form.strings tail = [⟨form, tail, chars, rest, h⟩] := by
  unfold strings
  split
  · rename_i hRead
    cases h.symm.trans hRead
    rfl
  · rename_i hRead
    cases h.symm.trans hRead

mutual

/-- The strings over several lines in a value at the front of a text. -/
def valueStrings : (fuel depth : Nat) → List Char → List LongString
  | 0, _, _ => []
  | fuel + 1, depth, chars =>
    match chars with
    | '"' :: '"' :: '"' :: tail => LongForm.basic.strings tail
    | '\'' :: '\'' :: '\'' :: tail => LongForm.literal.strings tail
    | '[' :: tail => elementStrings fuel (depth + 1) tail
    | '{' :: tail => assignmentStrings fuel (depth + 1) (skipBlanks tail)
    | _ => []

def elementStrings : (fuel depth : Nat) → List Char → List LongString
  | 0, _, _ => []
  | fuel + 1, depth, chars =>
    match readValue fuel depth (skipFiller false chars) with
    | none => []
    | some (_, rest) =>
      valueStrings fuel depth (skipFiller false chars) ++
        match skipFiller false rest with
        | ',' :: rest => elementStrings fuel depth rest
        | _ => []

def assignmentStrings : (fuel depth : Nat) → List Char → List LongString
  | 0, _, _ => []
  | fuel + 1, depth, chars =>
    match readKey (depthLimit - 1) chars with
    | some (_, '=' :: tail) =>
      match readValue fuel depth (skipBlanks tail) with
      | none => []
      | some (_, rest) =>
        valueStrings fuel depth (skipBlanks tail) ++
          match skipBlanks rest with
          | ',' :: rest => assignmentStrings fuel depth rest
          | _ => []
    | _ => []

end

/-- The strings over several lines in a statement, of which only assignments have a value. -/
def statementStrings (chars : List Char) : List LongString :=
  match readKey (depthLimit - 1) chars with
  | some (_, '=' :: tail) =>
    valueStrings (2 * (skipBlanks tail).length + 2) 0 (skipBlanks tail)
  | _ => []

def statementsStrings : (fuel : Nat) → List Char → List LongString
  | 0, _ => []
  | fuel + 1, chars =>
    match readStatement (skipFiller false chars) with
    | none => []
    | some (_, rest) => statementStrings (skipFiller false chars) ++ statementsStrings fuel rest

/-- The strings over several lines in a document. -/
def longStrings (text : List Char) : List LongString :=
  statementsStrings ((skipMark text).length + 1) (skipMark text)

/-! ## Strings of parts -/

variable {fuel depth : Nat}

theorem subset_elementStrings {chars tail : List Char} {v : Value}
    (hValue : readValue fuel depth (skipFiller false chars) = some (v, tail)) :
    valueStrings fuel depth (skipFiller false chars) ⊆ elementStrings (fuel + 1) depth chars ∧
      ∀ tail', skipFiller false tail = ',' :: tail' →
        elementStrings fuel depth tail' ⊆ elementStrings (fuel + 1) depth chars := by
  simp only [elementStrings, hValue]
  refine ⟨List.subset_append_left _ _, fun tail' hComma => ?_⟩
  rw [hComma]
  exact List.subset_append_right _ _

theorem subset_assignmentStrings {chars tail tail' : List Char} {key : Key} {v : Value}
    (hKey : readKey (depthLimit - 1) chars = some (key, '=' :: tail))
    (hValue : readValue fuel depth (skipBlanks tail) = some (v, tail')) :
    valueStrings fuel depth (skipBlanks tail) ⊆ assignmentStrings (fuel + 1) depth chars ∧
      ∀ tail'', skipBlanks tail' = ',' :: tail'' →
        assignmentStrings fuel depth tail'' ⊆ assignmentStrings (fuel + 1) depth chars := by
  simp only [assignmentStrings, hKey, hValue]
  refine ⟨List.subset_append_left _ _, fun tail'' hComma => ?_⟩
  rw [hComma]
  exact List.subset_append_right _ _

theorem statementsStrings_cons {chars rest : List Char} {statement : Statement}
    (h : readStatement (skipFiller false chars) = some (statement, rest)) :
    statementsStrings (fuel + 1) chars =
      statementStrings (skipFiller false chars) ++ statementsStrings fuel rest := by
  rw [statementsStrings, h]

end SignedDirectory.Toml
