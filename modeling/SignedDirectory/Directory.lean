import SignedDirectory.Lookup
import SignedDirectory.Trie

/-!
# Directories

A directory holds entries under their names, together with the trie that commits to them: the key of
a name is its digest, and its value is the digest of the entry. `Directory.respond` answers a
question for a name in the name of some servers.
-/

namespace SignedDirectory

/-- Entries under their names, and the trie that commits to them. -/
structure Directory where
  entries : SortedMap String Entry
  trie : Trie
  deriving DecidableEq

namespace Directory

def empty : Directory := ⟨∅, ∅⟩

instance : EmptyCollection Directory := ⟨empty⟩

instance : Inhabited Directory := ⟨empty⟩

variable [HashFunction]

def put (d : Directory) (entry : Entry) : Except PathError Directory := do
  let trie ← d.trie.insert (Digest.ofName entry.name) entry.digest
  return ⟨d.entries.insert entry.name entry, trie⟩

def remove (d : Directory) (name : String) : Except PathError Directory := do
  let trie ← d.trie.remove (Digest.ofName name)
  return ⟨d.entries.erase name, trie⟩

/-- The answer to a question for a name, for which every key vouches at the time that is given with
it. -/
def respond [SignatureScheme] (d : Directory) (name : String)
    (signers : List (PrivateKey × UInt64)) : Except PathError Lookup := do
  let (path, _) ← d.trie.lookup (Digest.ofName name)
  let proofs := signers.map fun (key, timestamp) =>
    (key.publicKey.toToken, SignedPath.mk path (.sign key ⟨d.trie.root, timestamp⟩))
  return ⟨d.entries.get? name, SortedMap.ofList proofs⟩

end Directory

end SignedDirectory
