import SignedDirectory.Bytes
import SignedDirectory.Token.Error

/-!
# Tokens

A token writes a byte string for people: its bits, most significant first, are cut into groups of
five, the last group filled up with zeros, and each group is one symbol of a 32-letter alphabet
without `i`, `l`, `o` and `u`. `decode` accepts exactly the tokens that `encode` writes, so every
byte string has one token. A typed value is a token in a wrapper `tag(token)`.
-/

namespace SignedDirectory.Token

/-- The symbols for the values 0 to 31. -/
def alphabet : List Char := "0123456789abcdefghjkmnpqrstvwxyz".toList

/-- The bits of `value` in `width` places, most significant first. -/
def bits : (width : Nat) → (value : Nat) → List Bool
  | 0, _ => []
  | width + 1, value => value.testBit width :: bits width value

/-- The value of a list of bits, most significant first. -/
def ofBits (bs : List Bool) : Nat := bs.foldl (fun n b => 2 * n + b.toNat) 0

def symbol (value : Nat) : Char := alphabet.getD value '0'

def value? (ch : Char) : Option Nat := alphabet.idxOf? ch

/-- Symbols for the bits in groups of five, the last group filled up with zeros. -/
def symbols : List Bool → List Char
  | [] => []
  | a :: b :: c :: d :: e :: rest => symbol (ofBits [a, b, c, d, e]) :: symbols rest
  | last => [symbol (ofBits (last ++ List.replicate (5 - last.length) false))]

def encodeChars (bytes : Bytes) : List Char :=
  symbols (bytes.flatMap fun b => bits 8 b.toNat)

def encode (bytes : Bytes) : String := String.ofList (encodeChars bytes)

/-- The bits of the symbols, five each; `position` is the byte offset of the first of them. -/
def readSymbols (position : Nat) : List Char → Except FormatError (List Bool)
  | [] => .ok []
  | ch :: rest =>
    match value? ch with
    | none => .error (.invalidCharacter ch position)
    | some value => (bits 5 value ++ ·) <$> readSymbols (position + ch.utf8Size) rest

/-- The whole bytes at the front of the bits, and the bits that are left over. -/
def octets : List Bool → Bytes × List Bool
  | a :: b :: c :: d :: e :: f :: g :: h :: rest =>
    let (bytes, left) := octets rest
    ((ofBits [a, b, c, d, e, f, g, h]).toUInt8 :: bytes, left)
  | left => ([], left)

/-- The byte string of a token given by its symbols. A foreign character is reported before a
length that no token has, and that before leftover bits that are not zero. -/
def decodeChars (chars : List Char) : Except FormatError Bytes := do
  let (bytes, left) := octets (← readSymbols 0 chars)
  if left.length ≥ 5 then throw (.invalidLength chars.length)
  if left.any id then throw .nonCanonical
  return bytes

def decode (token : String) : Except FormatError Bytes := decodeChars token.toList

/-- The text `tag(token)` for the token of `bytes`. -/
def wrap (bytes : Bytes) (tag : String) : String := tag ++ "(" ++ encode bytes ++ ")"

/-- The characters between `tag(` and `)`. -/
def inside? (tag : String) (wrapped : String) : Option (List Char) := do
  let rest ← tag.toList.isPrefixOf? wrapped.toList
  let rest ← ['('].isPrefixOf? rest
  [')'].isSuffixOf? rest

def unwrap (wrapped : String) (tag : String) : Except FormatError Bytes :=
  match inside? tag wrapped with
  | none => .error (.badWrapper tag)
  | some chars => decodeChars chars

def unwrapFixed (size : Nat) (wrapped : String) (tag : String) :
    Except FormatError (Vector UInt8 size) := do
  let bytes ← unwrap wrapped tag
  match bytes.toVector? size with
  | some fixed => return fixed
  | none => throw (.wrongSize tag size bytes.length)

end SignedDirectory.Token
