import SignedDirectory.Token

/-!
# Digests

A digest is 64 bytes, read as 512 bits: bit `i` is bit `i % 8` of byte `i / 8`, counted from the
least significant. The digest of all zeros stands for "nothing here". Besides the bits and the
first bit at which two digests differ, this module holds the hash function as a parameter of
everything that hashes: `HashFunction`, and `combine`, which joins two digests into their parent's.
-/

namespace SignedDirectory

structure Digest where
  bytes : Vector UInt8 64
  deriving DecidableEq

namespace Digest

def size : Nat := 64

/-- The number of bits of a digest, which is also the number of levels of a trie. -/
def width : Nat := 512

/-- The digest of all zeros. -/
def empty : Digest := ⟨Vector.replicate 64 0⟩

instance : Inhabited Digest := ⟨empty⟩

def isEmpty (d : Digest) : Bool := d = empty

def toBytes (d : Digest) : Bytes := d.bytes.toList

def ofBytes (bytes : Bytes) : Except FormatError Digest :=
  match bytes.toVector? 64 with
  | some fixed => .ok ⟨fixed⟩
  | none => .error (.wrongSize "hash" size bytes.length)

/-- Digests are ordered by their bytes, the first one first. -/
instance : Ord Digest := ⟨fun a b => compare a.bytes b.bytes⟩

/-- Bit `i` of a digest. -/
def bit (d : Digest) (i : Fin 512) : Bool :=
  (d.bytes[i.val / 8] >>> (i.val % 8).toUInt8) &&& 1 = 1

def bit? (d : Digest) (i : Nat) : Option Bool :=
  if h : i < 512 then some (d.bit ⟨i, h⟩) else none

/-- The digest with bit `i` set to the least significant bit of `value`. -/
def setBit (d : Digest) (i : Fin 512) (value : UInt8) : Digest :=
  let mask : UInt8 := 1 <<< (i.val % 8).toUInt8
  let byte := d.bytes[i.val / 8]
  ⟨d.bytes.set (i.val / 8) (if value &&& 1 = 0 then byte &&& ~~~mask else byte ||| mask)⟩

def setBit? (d : Digest) (i : Nat) (value : UInt8) : Option Digest :=
  if h : i < 512 then some (d.setBit ⟨i, h⟩ value) else none

/-- The least index at which the bits of two digests differ, and 512 for equal digests. -/
def firstDifference (a b : Digest) : Nat :=
  (List.finRange 512).findIdx fun i => a.bit i != b.bit i

/-- The token of a digest; a digest has no wrapper. -/
def toToken (d : Digest) : String := Token.encode d.toBytes

instance : ToString Digest := ⟨toToken⟩

def ofToken (token : String) : Except FormatError Digest := Token.decode token >>= ofBytes

end Digest

/-- A hash function from byte strings to digests. All hashing goes through it, so that what is
said of tries, paths and records holds of every hash function with the properties it names. -/
class HashFunction where
  digest : Bytes → Digest

namespace Digest

variable [HashFunction]

def ofData (data : Bytes) : Digest := HashFunction.digest data

/-- The digest of the UTF-8 bytes of a name: its key in the trie. -/
def ofName (name : String) : Digest := ofData (Bytes.ofString name)

/-- The digest of a parent from those of its two children. Two empty children have an empty parent,
so that an untouched subtree is empty at every level. -/
def combine (a b : Digest) : Digest :=
  if a = empty ∧ b = empty then empty else ofData (a.toBytes ++ b.toBytes)

end Digest

end SignedDirectory
