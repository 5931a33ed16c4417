import SignedDirectory.Bytes

/-!
# JSON values and how they are written

`Value` is what is written: it has only natural numbers, and its objects list their members in the
order in which they are written. `Value.compact` writes without any space; `Value.pretty` puts every
element and member on a line of its own, two spaces deeper than the line it belongs to.
-/

namespace SignedDirectory.Json

/-- A JSON value, as this library writes it. -/
inductive Value where
  | null
  | bool (b : Bool)
  | number (n : Nat)
  | string (s : String)
  | array (elements : List Value)
  | object (members : List (String × Value))
  deriving Inhabited

/-- One character of a string: quotes, backslashes and the characters below U+0020 are escaped, the
latter by their short escapes where they have one. -/
def escapeChar (ch : Char) : List Char :=
  if ch = '"' then ['\\', '"']
  else if ch = '\\' then ['\\', '\\']
  else if ch = '\x08' then ['\\', 'b']
  else if ch = '\t' then ['\\', 't']
  else if ch = '\n' then ['\\', 'n']
  else if ch = '\x0c' then ['\\', 'f']
  else if ch = '\r' then ['\\', 'r']
  else if ch.toNat < 0x20 then
    ['\\', 'u', '0', '0', Bytes.hexDigit (ch.toNat / 16), Bytes.hexDigit (ch.toNat % 16)]
  else [ch]

def quote (s : String) : List Char := '"' :: (s.toList.flatMap escapeChar ++ ['"'])

def boolWord (b : Bool) : List Char := if b then "true".toList else "false".toList

def decimal (n : Nat) : List Char := Nat.toDigits 10 n

mutual

/-- The text of a value, without spaces. -/
def writeCompact : Value → List Char
  | .null => "null".toList
  | .bool b => boolWord b
  | .number n => decimal n
  | .string s => quote s
  | .array [] => "[]".toList
  | .array (v :: rest) => '[' :: (writeCompact v ++ writeElements rest)
  | .object [] => ['{', '}']
  | .object ((name, v) :: rest) =>
    '{' :: (quote name ++ ':' :: (writeCompact v ++ writeMembers rest))

def writeElements : List Value → List Char
  | [] => [']']
  | v :: rest => ',' :: (writeCompact v ++ writeElements rest)

def writeMembers : List (String × Value) → List Char
  | [] => ['}']
  | (name, v) :: rest => ',' :: (quote name ++ ':' :: (writeCompact v ++ writeMembers rest))

end

def newLine (depth : Nat) : List Char := '\n' :: List.replicate (2 * depth) ' '

mutual

/-- The text of a value over several lines; `depth` is that of the line on which it starts. -/
def writePretty (depth : Nat) : Value → List Char
  | .null => "null".toList
  | .bool b => boolWord b
  | .number n => decimal n
  | .string s => quote s
  | .array [] => "[]".toList
  | .array (v :: rest) =>
    '[' :: (newLine (depth + 1) ++ writePretty (depth + 1) v ++ prettyElements depth rest)
  | .object [] => ['{', '}']
  | .object ((name, v) :: rest) =>
    '{' :: (newLine (depth + 1) ++ quote name ++ [':', ' '] ++ writePretty (depth + 1) v ++
      prettyMembers depth rest)

def prettyElements (depth : Nat) : List Value → List Char
  | [] => newLine depth ++ [']']
  | v :: rest =>
    ',' :: (newLine (depth + 1) ++ writePretty (depth + 1) v ++ prettyElements depth rest)

def prettyMembers (depth : Nat) : List (String × Value) → List Char
  | [] => newLine depth ++ ['}']
  | (name, v) :: rest =>
    ',' :: (newLine (depth + 1) ++ quote name ++ [':', ' '] ++ writePretty (depth + 1) v ++
      prettyMembers depth rest)

end

namespace Value

def compact (v : Value) : String := String.ofList (writeCompact v)

def pretty (v : Value) : String := String.ofList (writePretty 0 v)

mutual

/-- The value with the members of all its objects in ascending order of their names. -/
def sortMembers : Value → Value
  | .array elements => .array (sortElements elements)
  | .object members => .object ((sortEach members).mergeSort fun a b => a.1 ≤ b.1)
  | v => v

def sortElements : List Value → List Value
  | [] => []
  | v :: rest => sortMembers v :: sortElements rest

def sortEach : List (String × Value) → List (String × Value)
  | [] => []
  | (name, v) :: rest => (name, sortMembers v) :: sortEach rest

end

end Value

end SignedDirectory.Json
