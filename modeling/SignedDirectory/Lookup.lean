import SignedDirectory.AuditPath
import SignedDirectory.Record

/-!
# Lookups

What a directory answers when it is asked for a name: the entry, or nothing, and for every server
that vouches for the answer an audit path together with the root to which that server has put its
signature. `Lookup.merge` adds the servers of one answer to those of another.
-/

namespace SignedDirectory

/-- A root with the signature of one server. -/
structure SignedRoot where
  root : Root
  signature : Signature
  deriving DecidableEq

namespace SignedRoot

variable [HashFunction] [SignatureScheme]

def sign (key : PrivateKey) (root : Root) : SignedRoot := ⟨root, key.sign (.root root)⟩

def verify (signed : SignedRoot) (key : PublicKey) : Bool :=
  key.verify (.root signed.root) signed.signature

end SignedRoot

/-- The audit path of the name that was asked for, with the root to which it has to lead. -/
structure SignedPath where
  path : AuditPath
  signedRoot : SignedRoot
  deriving DecidableEq

/-- The answer to a question for one name. -/
structure Lookup where
  /-- What the directory says about the name. -/
  entry : Option Entry
  /-- One proof for every server, under the token of the server's public key. -/
  proofs : SortedMap String SignedPath
  deriving DecidableEq

namespace Lookup

/-- Adds the proofs of `other`, which take the place of proofs of the same servers. -/
def merge (lookup other : Lookup) : Lookup :=
  { lookup with proofs := lookup.proofs.union other.proofs }

end Lookup

end SignedDirectory
