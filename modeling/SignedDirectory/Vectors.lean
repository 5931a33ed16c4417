import SignedDirectory.Trie
import SignedDirectory.Wire.Lookup

/-!
# Test vectors

A fixed directory of two entries, signed by a fixed key, and everything that can be computed from
it: with these values another implementation can check its codec, hashing, tries and signatures.
-/

namespace SignedDirectory.Vectors

open Json

variable [HashFunction] [SignatureScheme]

def key : PrivateKey := ⟨Vector.replicate 32 1⟩

def timestamp : UInt64 := 1450000000

def name : String := "email:alice@example.com"

/-- An entry with one slot, changed ten minutes before the root was signed. -/
def entry (name slot key : String) : Entry :=
  ⟨name, SortedMap.ofList [(slot, key)], timestamp - 600, false⟩

def alice : Entry := entry name "ssh" "ssh-ed25519 AAAAC3NzaC1lZDI1NTE5"

def bob : Entry := entry "email:bob@example.com" "pgp" "4F2A 91C0"

/-- The signed root of the directory, and the audit path of the name that is looked up. -/
def signedPath : Except PathError SignedPath := do
  let (root, path) ← Trie.ofPair (Digest.ofName alice.name, alice.digest)
    (Digest.ofName bob.name, bob.digest)
  return ⟨path, .sign key ⟨root, timestamp⟩⟩

def lookup : Except PathError Lookup := do
  return ⟨some alice, SortedMap.ofList [(key.publicKey.toToken, ← signedPath)]⟩

/-- A digest as its token and as hexadecimal text. -/
def digestMembers (d : Digest) : List (String × Value) :=
  [("hash", .string d.toToken), ("hex", .string (Bytes.toHex d.toBytes))]

/-- All values, with the members of every object in order. -/
def generate : Except PathError Value := do
  let root := (← signedPath).signedRoot.root
  let bytes : Bytes := [1, 2, 3]
  return (Value.object [
    ("version", .string "keytree-0.4"),
    ("codec", .object [
      ("bytes", .string (Bytes.toHex bytes)),
      ("wrapped", .string (Token.wrap bytes "test-foo"))]),
    ("typeTags", .object [
      ("entry", .string (Record.entry alice).tag),
      ("root", .string (Record.root root).tag)]),
    ("keys", .object [
      ("seed", .string (Bytes.toHex key.seed.toList)),
      ("public", .string key.publicKey.toToken),
      ("private", .string key.toToken)]),
    ("hashString", .object (("input", .string name) :: digestMembers (Digest.ofName name))),
    ("entry", .object (("value", toJson alice) :: digestMembers alice.digest)),
    ("root", .object (("value", toJson root) :: digestMembers root.digest)),
    ("emptyHash", .string Digest.empty.toToken),
    ("lookup", toJson (← lookup))]).sortMembers

end SignedDirectory.Vectors
