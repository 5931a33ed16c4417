import SignedDirectory.Bytes
import SignedDirectory.Decimal

/-!
# Reading JSON

`Source` is a JSON text as it is read: every value at its place, numbers sorted into the kinds that
matter here, and the places where the text stops being JSON marked as `broken`. A reader of typed
values walks through a `Source` in the order of the text, so that of several faults it finds the
first one, whether that is a fault of the text or of what the text says.

A string may be `unreadable` although its end is clear, because half of a surrogate pair stands
alone in it; so may a number, because it is too large for any number format. Both are harmless in
members that nobody reads. `Source.ofChars` is told which characters stand for undecodable bytes;
these make a string unreadable as well.
-/

namespace SignedDirectory.Json

inductive Label where
  | name (s : String)
  | unreadable
  /-- The text stops being JSON where a name was due. -/
  | broken
  deriving DecidableEq, Inhabited

inductive Source where
  | null
  | bool (b : Bool)
  /-- A number without sign, fraction and exponent. -/
  | natural (n : UInt64)
  /-- A negative integer of 64 bits. -/
  | negative
  | real
  | string (s : String)
  /-- A string or a number that ends where it should but has no value. -/
  | unreadable
  | array (elements : List Source)
  | object (members : List (Label × Source))
  /-- The text stops being JSON where a value was due. -/
  | broken
  deriving Inhabited

def isSpace (ch : Char) : Bool := ch = ' ' || ch = '\n' || ch = '\t' || ch = '\r'

def skipSpace : List Char → List Char := List.dropWhile isSpace

/-! ## Strings -/

/-- One unit of a string. -/
inductive Piece where
  | char (ch : Char)
  /-- Half of a surrogate pair, as its escape gives it. -/
  | half (code : Nat)
  | stray

def Piece.ofHex? (a b c d : Char) : Option Piece := do
  let code ← Bytes.ofHexDigits? [a, b, c, d]
  return if 0xD800 ≤ code ∧ code < 0xE000 then .half code else .char (Char.ofNat code)

def shortEscape? : Char → Option Char
  | '"' => some '"'
  | '\\' => some '\\'
  | '/' => some '/'
  | 'b' => some '\x08'
  | 'f' => some '\x0c'
  | 'n' => some '\n'
  | 'r' => some '\r'
  | 't' => some '\t'
  | _ => none

/-- The pieces of a string after its opening quote, and the text after its closing quote. -/
def readPieces (stray : Char → Bool) : List Char → Option (List Piece × List Char)
  | [] => none
  | '"' :: rest => some ([], rest)
  | '\\' :: 'u' :: a :: b :: c :: d :: rest => do
    let piece ← Piece.ofHex? a b c d
    let (pieces, rest) ← readPieces stray rest
    return (piece :: pieces, rest)
  | '\\' :: ch :: rest => do
    let ch ← shortEscape? ch
    let (pieces, rest) ← readPieces stray rest
    return (.char ch :: pieces, rest)
  | ch :: rest =>
    if ch.toNat < 0x20 then none
    else do
      let (pieces, rest) ← readPieces stray rest
      return ((if stray ch then .stray else .char ch) :: pieces, rest)

/-- The characters of a string, if every half of a surrogate pair meets its other half and no byte
is undecodable. -/
def joinPieces : List Piece → Option (List Char)
  | [] => some []
  | .char ch :: rest => (joinPieces rest).map (ch :: ·)
  | .half high :: .half low :: rest =>
    if high < 0xDC00 ∧ 0xDC00 ≤ low then
      (joinPieces rest).map
        (Char.ofNat (0x10000 + (high - 0xD800) * 0x400 + (low - 0xDC00)) :: ·)
    else none
  | _ => none

/-- A string after its opening quote: its text, if it has one, and what follows it. -/
def readString (stray : Char → Bool) (chars : List Char) : Option (Option String × List Char) :=
  (readPieces stray chars).map fun (pieces, rest) => ((joinPieces pieces).map String.ofList, rest)

/-! ## Numbers -/

/-- The digits at the front of a text, at least one, and what follows them. -/
def readDigits (chars : List Char) : Option (List Char × List Char) :=
  match chars.span Decimal.isDigit with
  | ([], _) => none
  | split => some split

/-- The digits of an integer, without a zero in front, and what follows them. -/
def readInteger (chars : List Char) : Option (List Char × List Char) :=
  match readDigits chars with
  | some ('0' :: _ :: _, _) => none
  | split => split

/-- The digits of a fraction, none if there is no point. -/
def readFraction : List Char → Option (List Char × List Char)
  | '.' :: rest => readDigits rest
  | chars => some ([], chars)

/-- The exponent of a number, if it has one. -/
def readExponent : List Char → Option (Option Int × List Char)
  | ch :: rest =>
    if ch = 'e' ∨ ch = 'E' then
      match rest with
      | '-' :: rest => (readDigits rest).map fun (ds, rest) => (some (-(Decimal.ofDigits ds)), rest)
      | '+' :: rest => (readDigits rest).map fun (ds, rest) => (some (Decimal.ofDigits ds), rest)
      | rest => (readDigits rest).map fun (ds, rest) => (some (Decimal.ofDigits ds), rest)
    else some (none, ch :: rest)
  | [] => some (none, [])

def Source.ofInteger? (isNegative : Bool) (n : Nat) : Option Source :=
  if isNegative then if 0 < n ∧ n ≤ 0x8000000000000000 then some .negative else none
  else if n < UInt64.size then some (.natural n.toUInt64)
  else none

def readNumber (isNegative : Bool) (chars : List Char) : Option (Source × List Char) := do
  let (whole, rest) ← readInteger chars
  let (fraction, rest) ← readFraction rest
  let (exponent, rest) ← readExponent rest
  let rounded :=
    if (Decimal.Scaled.ofDigits whole fraction (exponent.getD 0)).overflows then .unreadable
    else .real
  if fraction = [] ∧ exponent = none then
    return ((Source.ofInteger? isNegative (Decimal.ofDigits whole)).getD rounded, rest)
  else return (rounded, rest)

/-! ## Values -/

def readWord (word : String) (value : Source) (chars : List Char) : Source × Option (List Char) :=
  match word.toList.isPrefixOf? chars with
  | some rest => (value, some rest)
  | none => (.broken, none)

/-- What a scanner has found, or a break in the text. -/
def orBroken : Option (Source × List Char) → Source × Option (List Char)
  | some (value, rest) => (value, some rest)
  | none => (.broken, none)

mutual

/-- The value at the front of a text, and what follows it unless the text broke off. Every step
takes a character, so that twice the length of the text is fuel enough. -/
def readValue (stray : Char → Bool) : (fuel : Nat) → List Char → Source × Option (List Char)
  | 0, _ => (.broken, none)
  | fuel + 1, chars =>
    match skipSpace chars with
    | '"' :: rest =>
      orBroken ((readString stray rest).map fun (text, rest) =>
        ((text.map Source.string).getD .unreadable, rest))
    | '[' :: rest =>
      match skipSpace rest with
      | ']' :: rest => (.array [], some rest)
      | rest =>
        let (elements, rest) := readElements stray fuel rest
        (.array elements, rest)
    | '{' :: rest =>
      match skipSpace rest with
      | '}' :: rest => (.object [], some rest)
      | rest =>
        let (members, rest) := readMembers stray fuel rest
        (.object members, rest)
    | '-' :: rest => orBroken (readNumber true rest)
    | 'n' :: rest => readWord "ull" .null rest
    | 't' :: rest => readWord "rue" (.bool true) rest
    | 'f' :: rest => readWord "alse" (.bool false) rest
    | chars => orBroken (readNumber false chars)

/-- The elements of an array, at least one, and what follows its closing bracket. -/
def readElements (stray : Char → Bool) :
    (fuel : Nat) → List Char → List Source × Option (List Char)
  | 0, _ => ([.broken], none)
  | fuel + 1, chars =>
    match readValue stray fuel chars with
    | (value, none) => ([value], none)
    | (value, some rest) =>
      match skipSpace rest with
      | ',' :: rest =>
        let (elements, rest) := readElements stray fuel rest
        (value :: elements, rest)
      | ']' :: rest => ([value], some rest)
      | _ => ([value, .broken], none)

/-- The members of an object, at least one, and what follows its closing brace. -/
def readMembers (stray : Char → Bool) :
    (fuel : Nat) → List Char → List (Label × Source) × Option (List Char)
  | 0, _ => ([(.broken, .broken)], none)
  | fuel + 1, chars =>
    match skipSpace chars with
    | '"' :: rest =>
      match readString stray rest with
      | none => ([(.broken, .broken)], none)
      | some (text, rest) =>
        let label := (text.map Label.name).getD .unreadable
        match skipSpace rest with
        | ':' :: rest =>
          match readValue stray fuel rest with
          | (value, none) => ([(label, value)], none)
          | (value, some rest) =>
            match skipSpace rest with
            | ',' :: rest =>
              let (members, rest) := readMembers stray fuel rest
              ((label, value) :: members, rest)
            | '}' :: rest => ([(label, value)], some rest)
            | _ => ([(label, value), (.broken, .broken)], none)
        | _ => ([(label, .broken)], none)
    | _ => ([(.broken, .broken)], none)

end

structure Document where
  source : Source
  /-- Whether nothing but space follows the value. -/
  ended : Bool
  deriving Inhabited

/-- The JSON text that some characters are; `stray` tells which of them stand for undecodable
bytes. -/
def Document.ofChars (stray : Char → Bool) (chars : List Char) : Document :=
  let (source, rest) := readValue stray (2 * chars.length + 2) chars
  ⟨source, (rest.map skipSpace) = some []⟩

def Document.ofString (text : String) : Document :=
  Document.ofChars (fun _ => false) text.toList

/-- A character that does not occur in a text. -/
def freshChar (chars : List (Option Char)) : Char :=
  let candidates := (List.range (chars.length + 1)).map fun i => Char.ofNat (0x10000 + i)
  (candidates.find? fun ch => !chars.contains (some ch)).getD '\uFFFD'

def Document.ofBytes (bytes : Bytes) : Document :=
  let chars := Bytes.decode bytes
  let mark := freshChar chars
  Document.ofChars (· = mark) (chars.map (·.getD mark))

namespace Source

mutual

/-- Whether a value is JSON to its end. -/
def isWhole : Source → Bool
  | .broken => false
  | .array elements => areWhole elements
  | .object members => haveWhole members
  | _ => true

def areWhole : List Source → Bool
  | [] => true
  | v :: rest => v.isWhole && areWhole rest

def haveWhole : List (Label × Source) → Bool
  | [] => true
  | (label, v) :: rest => label != .broken && v.isWhole && haveWhole rest

end

end Source

end SignedDirectory.Json
