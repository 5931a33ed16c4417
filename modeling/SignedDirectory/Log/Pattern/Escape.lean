import SignedDirectory.Bytes
import SignedDirectory.Text.Alphanumeric

/-!
# Modes and escapes of regular expressions

The flags under which a regular expression is read, and what may follow a backslash. In the Unicode
mode whatever would need a table of a Unicode property is refused: named sets such as `\d`, and word
boundaries. Without it nothing may match a byte outside ASCII.
-/

namespace SignedDirectory.Pattern

structure Mode where
  /-- Letters stand for both cases. -/
  anyCase : Bool := false
  unicode : Bool := true
  /-- White space and comments are passed over. -/
  verbose : Bool := false

namespace Mode

def set (mode : Mode) (flag : Char) (on : Bool) : Mode :=
  match flag with
  | 'i' => { mode with anyCase := on }
  | 'u' => { mode with unicode := on }
  | 'x' => { mode with verbose := on }
  | _ => mode

/-- Whether the mode asks for both cases of letters of all scripts, for which there is no table. -/
def needsCases (mode : Mode) : Bool := mode.anyCase && mode.unicode

/-- The text after white space and comments. -/
def skipAll (inComment : Bool) : List Char → List Char
  | [] => []
  | ch :: rest =>
    if inComment then skipAll (ch ≠ '\n') rest
    else if ch = '#' then skipAll true rest
    else if Text.isWhiteSpace ch then skipAll false rest
    else ch :: rest

/-- The text after white space and comments, if these are passed over. -/
def skip (mode : Mode) (chars : List Char) : List Char :=
  if mode.verbose then skipAll false chars else chars

/-- The first character of a text. If white space is passed over, it is the first one that is none,
even inside a comment, unless there is no such character. -/
def peek? (mode : Mode) (chars : List Char) : Option Char :=
  if mode.verbose then
    let rest := match chars.dropWhile Text.isWhiteSpace with
      | '#' :: rest => rest.dropWhile Text.isWhiteSpace
      | rest => rest
    rest.head? <|> chars.head?
  else chars.head?

end Mode

inductive Atom where
  | literal (code : Nat)
  | set
  | assertion
  deriving DecidableEq

/-- A character that may always stand after a backslash: all of ASCII but letters, digits and
angle brackets. -/
def isEscapable (ch : Char) : Bool :=
  ch.toNat < 0x80 && !ch.isAlphanum && ch ≠ '<' && ch ≠ '>'

/-- A number of hexadecimal digits, the value of those before them being `value`. -/
def readHex (mode : Mode) : (size : Nat) → (value : Nat) → List Char → Option (Nat × List Char)
  | 0, value, chars => some (value, chars)
  | size + 1, value, chars =>
    match mode.skip chars with
    | [] => none
    | ch :: rest => do readHex mode size (16 * value + (← Bytes.hexValue? ch)) rest

def readCode (mode : Mode) (size : Nat) (chars : List Char) : Option (Nat × List Char) := do
  let (code, rest) ← readHex mode size 0 chars
  if code.isValidChar then some (code, rest) else none

/-- The letters that stand for control characters after a backslash. -/
def controlCodes : List (Char × Nat) :=
  [('a', 7), ('t', 9), ('n', 10), ('v', 11), ('f', 12), ('r', 13)]

def readEscape (mode : Mode) : List Char → Option (Atom × List Char)
  | [] => none
  | 'x' :: rest => do
    let (code, rest) ← readCode mode 2 rest
    if mode.unicode ∨ code < 0x80 then some (.literal code, rest) else none
  | 'u' :: rest => (readCode mode 4 rest).map fun (code, rest) => (.literal code, rest)
  | 'U' :: rest => (readCode mode 8 rest).map fun (code, rest) => (.literal code, rest)
  | ch :: rest =>
    if isEscapable ch then some (.literal ch.toNat, rest)
    else if let some code := controlCodes.lookup ch then some (.literal code, rest)
    else if "Az".contains ch then some (.assertion, rest)
    else if mode.unicode then none
    else if "bB<>".contains ch then some (.assertion, rest)
    else if "dsw".contains ch then some (.set, rest)
    else none

/-- How many things were read side by side, and how deep the deepest of them is nested. -/
structure Extent where
  size : Nat := 0
  depth : Nat := 0

namespace Extent

def add (e : Extent) (depth : Nat) : Extent := ⟨e.size + 1, max e.depth depth⟩

/-- How deep all of it together is nested: two things or more make a level of their own. -/
def closed (e : Extent) : Nat := if e.size ≤ 1 then e.depth else e.depth + 1

end Extent

end SignedDirectory.Pattern
