import SignedDirectory.Toml.Scalar

/-!
# TOML documents

The reader of keys, values and statements. `Table.ofString?` gives the root table of a document, or
nothing if the text is no TOML or its statements contradict each other.
-/

namespace SignedDirectory.Toml

/-- The number of names in a key, and of arrays and inline tables around a value, that is no longer
allowed. -/
def depthLimit : Nat := 80

/-! ## Keys -/

def isNameChar (ch : Char) : Bool := ch.isAlphanum || ch = '_' || ch = '-'

def readName : List Char → Option (String × List Char)
  | '"' :: rest => (readBasic rest).map fun (chars, rest) => (String.ofList chars, rest)
  | '\'' :: rest => (readLiteral rest).map fun (chars, rest) => (String.ofList chars, rest)
  | chars =>
    let name := chars.takeWhile isNameChar
    if name = [] then none else some (String.ofList name, chars.dropWhile isNameChar)

/-- A key of at most `limit` names, and what follows it and any blanks. -/
def readKey : (limit : Nat) → List Char → Option (Key × List Char)
  | 0, _ => none
  | limit + 1, chars => do
    let (name, rest) ← readName (skipBlanks chars)
    match skipBlanks rest with
    | '.' :: rest =>
      let (key, rest) ← readKey limit rest
      return (⟨name :: key.path, key.name⟩, rest)
    | rest => return (⟨[], name⟩, rest)

/-! ## Between values and statements -/

/-- The text after blanks, line ends and comments; `inComment` holds inside a comment. A character
that no comment may have is left in front. -/
def skipFiller (inComment : Bool) : List Char → List Char
  | [] => []
  | '\r' :: '\n' :: rest => skipFiller false rest
  | ch :: rest =>
    if ch = '\n' then skipFiller false rest
    else if inComment then
      if isPlain ch then skipFiller true rest else ch :: rest
    else if isBlank ch then skipFiller false rest
    else if ch = '#' then skipFiller true rest
    else ch :: rest

/-- The text after the end of a line, before which only blanks and a comment may stand. -/
def endLine? (chars : List Char) : Option (List Char) :=
  let rest := match skipBlanks chars with
    | '#' :: rest => rest.dropWhile isPlain
    | rest => rest
  match rest with
  | [] => some []
  | '\n' :: rest => some rest
  | '\r' :: '\n' :: rest => some rest
  | _ => none

/-! ## Values -/

mutual

/-- A value at the front of a text, and what follows it; `depth` counts the arrays and inline tables
around it. -/
def readValue : (fuel depth : Nat) → List Char → Option (Value × List Char)
  | 0, _, _ => none
  | fuel + 1, depth, chars =>
    match chars with
    | '"' :: '"' :: '"' :: rest =>
      (readLongBasic false (skipLineEnd rest)).map fun (chars, rest) =>
        (.string (String.ofList chars), rest)
    | '"' :: rest =>
      (readBasic rest).map fun (chars, rest) => (.string (String.ofList chars), rest)
    | '\'' :: '\'' :: '\'' :: rest =>
      (readLongLiteral (skipLineEnd rest)).map fun (chars, rest) =>
        (.string (String.ofList chars), rest)
    | '\'' :: rest =>
      (readLiteral rest).map fun (chars, rest) => (.string (String.ofList chars), rest)
    | '[' :: rest =>
      if depth + 1 < depthLimit then
        (readElements fuel (depth + 1) rest).map fun (elements, rest) => (.array elements, rest)
      else none
    | '{' :: rest =>
      if depth + 1 < depthLimit then
        match skipBlanks rest with
        | '}' :: rest => some (.table .inline [], rest)
        | rest => do
          let (assignments, rest) ← readAssignments fuel (depth + 1) rest
          return (.table .inline (← Table.ofAssignments assignments), rest)
      else none
    | chars => do
      let (bare, rest) := splitBare chars
      return (← bareValue? bare, rest)

/-- The elements of an array up to its closing bracket; a comma may follow the last one. -/
def readElements : (fuel depth : Nat) → List Char → Option (List Value × List Char)
  | 0, _, _ => none
  | fuel + 1, depth, chars =>
    match skipFiller false chars with
    | ']' :: rest => some ([], rest)
    | chars => do
      let (value, rest) ← readValue fuel depth chars
      match skipFiller false rest with
      | ',' :: rest =>
        let (elements, rest) ← readElements fuel depth rest
        return (value :: elements, rest)
      | ']' :: rest => return ([value], rest)
      | _ => none

/-- The assignments of an inline table, at least one, up to its closing brace, all on one line. -/
def readAssignments : (fuel depth : Nat) → List Char → Option (List (Key × Value) × List Char)
  | 0, _, _ => none
  | fuel + 1, depth, chars => do
    let (key, rest) ← readKey (depthLimit - 1) chars
    let (value, rest) ← readValue fuel depth (skipBlanks (← exactly? '=' rest))
    match skipBlanks rest with
    | ',' :: rest =>
      let (assignments, rest) ← readAssignments fuel depth rest
      return ((key, value) :: assignments, rest)
    | '}' :: rest => return ([(key, value)], rest)
    | _ => none

end

/-! ## Statements -/

/-- One statement with the end of its line, and what follows it. Every step into a value takes a
character, so that twice the length of the text is fuel enough. -/
def readStatement : List Char → Option (Statement × List Char)
  | '[' :: '[' :: rest => do
    let (key, rest) ← readKey (depthLimit - 1) rest
    let rest ← endLine? (← exactly? ']' (← exactly? ']' rest))
    return (.element key, rest)
  | '[' :: rest => do
    let (key, rest) ← readKey (depthLimit - 1) rest
    let rest ← endLine? (← exactly? ']' rest)
    return (.table key, rest)
  | chars => do
    let (key, rest) ← readKey (depthLimit - 1) chars
    let rest := skipBlanks (← exactly? '=' rest)
    let (value, rest) ← readValue (2 * rest.length + 2) 0 rest
    return (.assign key value, ← endLine? rest)

/-- The statements of a text. Every statement takes a character. -/
def readStatements : (fuel : Nat) → List Char → Option (List Statement)
  | 0, _ => none
  | fuel + 1, chars =>
    match skipFiller false chars with
    | [] => some []
    | chars => do
      let (statement, rest) ← readStatement chars
      return statement :: (← readStatements fuel rest)

/-- The root table of a document, which may begin with a byte order mark. -/
def Table.ofString? (text : String) : Option Table := do
  let chars := match text.toList with
    | '\uFEFF' :: rest => rest
    | chars => chars
  Table.ofStatements (← readStatements (chars.length + 1) chars)

end SignedDirectory.Toml
