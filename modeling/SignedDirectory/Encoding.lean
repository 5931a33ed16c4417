import SignedDirectory.Digest

/-!
# Writing records as bytes

A record is hashed by writing its fields one after another. A text is preceded by its length, so
that no two lists of fields of the same kinds are written alike.
-/

namespace SignedDirectory.Encoding

/-- A flag is written as one byte. -/
def ofBool (b : Bool) : Bytes := [if b then 1 else 0]

/-- A text is written as the length of its UTF-8 bytes, in eight bytes, and those bytes. -/
def ofText (s : String) : Bytes := Bytes.ofUInt64 s.utf8ByteSize.toUInt64 ++ Bytes.ofString s

inductive Item where
  | bytes (data : Bytes)
  /-- An integer in eight bytes, most significant byte first. -/
  | integer (n : UInt64)
  | flag (b : Bool)
  | text (s : String)

def Item.encode : Item → Bytes
  | .bytes data => data
  | .integer n => Bytes.ofUInt64 n
  | .flag b => ofBool b
  | .text s => ofText s

/-- The digest of nothing written and the digest after each of the items. -/
def digests [HashFunction] (items : List Item) : List Digest :=
  (List.range (items.length + 1)).map fun n =>
    Digest.ofData ((items.take n).flatMap Item.encode)

end SignedDirectory.Encoding
