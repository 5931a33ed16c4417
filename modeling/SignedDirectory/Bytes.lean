/-!
# Byte strings

Byte strings of any length are lists of bytes; those of a fixed length are vectors. Here are the
passage between the two, big-endian integers, the UTF-8 bytes of a text and hexadecimal text.
-/

namespace SignedDirectory

abbrev Bytes := List UInt8

namespace Bytes

/-- The byte string as a vector of `n` bytes, if that is its length. -/
def toVector? (n : Nat) (bytes : Bytes) : Option (Vector UInt8 n) :=
  if h : bytes.length = n then some ⟨bytes.toArray, by simpa using h⟩ else none

/-- The two halves of 64 bytes. -/
def halves (bytes : Vector UInt8 64) : Vector UInt8 32 × Vector UInt8 32 :=
  ((bytes.take 32).cast (by omega), (bytes.drop 32).cast (by omega))

/-- The eight bytes of a 64-bit integer, most significant byte first. -/
def ofUInt64 (n : UInt64) : Bytes :=
  [(n >>> 56).toUInt8, (n >>> 48).toUInt8, (n >>> 40).toUInt8, (n >>> 32).toUInt8,
   (n >>> 24).toUInt8, (n >>> 16).toUInt8, (n >>> 8).toUInt8, n.toUInt8]

def ofString (s : String) : Bytes := s.toUTF8.data.toList

def toString? (bytes : Bytes) : Option String := String.fromUTF8? ⟨bytes.toArray⟩

/-- The integer whose base-256 digits are `bytes`, least significant first. -/
def toNatLE (bytes : Bytes) : Nat := bytes.foldr (fun b n => n * 256 + b.toNat) 0

/-- The `n` least significant base-256 digits of `value`, least significant first. -/
def ofNatLE : (n : Nat) → (value : Nat) → Bytes
  | 0, _ => []
  | n + 1, value => value.toUInt8 :: ofNatLE n (value / 256)

theorem length_ofNatLE (n value : Nat) : (ofNatLE n value).length = n := by
  induction n generalizing value with
  | zero => rfl
  | succ n ih => simp [ofNatLE, ih]

def hexDigit (n : Nat) : Char :=
  if n < 10 then Char.ofNat (48 + n) else Char.ofNat (87 + n)

/-- The value of a hexadecimal digit of either case. -/
def hexValue? (ch : Char) : Option Nat :=
  if '0' ≤ ch ∧ ch ≤ '9' then some (ch.toNat - 48)
  else if 'a' ≤ ch ∧ ch ≤ 'f' then some (ch.toNat - 87)
  else if 'A' ≤ ch ∧ ch ≤ 'F' then some (ch.toNat - 55)
  else none

def ofHexDigits? (digits : List Char) : Option Nat :=
  digits.foldlM (fun n ch => return 16 * n + (← hexValue? ch)) 0

def toHex (bytes : Bytes) : String :=
  String.ofList (bytes.flatMap fun b => [hexDigit (b.toNat / 16), hexDigit (b.toNat % 16)])

def littleEndian (n value : Nat) : Vector UInt8 n :=
  ⟨(ofNatLE n value).toArray, by simp [length_ofNatLE]⟩

/-- The character that some bytes begin with, and how many bytes after the first one it takes. -/
def firstChar? (bytes : Bytes) : Option (Char × Nat) :=
  (List.range 4).findSome? fun more => do
    let text ← toString? (bytes.take (more + 1))
    let ch ← text.toList.head?
    return (ch, more)

/-- The characters of a byte string, with nothing for every byte that belongs to none. -/
def decode : Bytes → List (Option Char)
  | [] => []
  | b :: rest =>
    match firstChar? (b :: rest) with
    | some (ch, more) => some ch :: decode (rest.drop more)
    | none => none :: decode rest
  termination_by bytes => bytes.length
  decreasing_by all_goals simp; try omega

end Bytes

end SignedDirectory
