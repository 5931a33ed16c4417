import SignedDirectory.Encoding
import SignedDirectory.Key
import SignedDirectory.SortedMap

/-!
# Records

The two kinds of record that are signed: the `Entry` that binds a name to keys, and the `Root` that
commits to a whole directory. `encode` gives the bytes that are hashed, and `Record.message` the
bytes that are signed: the digest of the record followed by the tag of its kind, so that a signature
of one kind never stands for the other.
-/

namespace SignedDirectory

/-- What a directory says about a name. -/
structure Entry where
  name : String
  /-- From the names of key slots to the keys in them. -/
  keys : SortedMap String String
  /-- When the entry was last changed, in seconds since 1970. -/
  timestamp : UInt64
  /-- Whether the entry is in its recovery window. -/
  inRecovery : Bool
  deriving DecidableEq

/-- A commitment to all of a directory at one time. -/
structure Root where
  rootHash : Digest
  /-- When the root was signed, in seconds since 1970. -/
  timestamp : UInt64
  deriving DecidableEq

/-- The bytes of an entry: its name, the number of its slots, every slot with its key in ascending
order, its time and its flag. -/
def Entry.encode (e : Entry) : Bytes :=
  Encoding.ofText e.name ++ Bytes.ofUInt64 e.keys.size.toUInt64 ++
    e.keys.toList.flatMap (fun slot => Encoding.ofText slot.1 ++ Encoding.ofText slot.2) ++
    Bytes.ofUInt64 e.timestamp ++ Encoding.ofBool e.inRecovery

/-- The bytes of a root: its digest and its time. -/
def Root.encode (r : Root) : Bytes := r.rootHash.toBytes ++ Bytes.ofUInt64 r.timestamp

/-- A record that can be signed. -/
inductive Record where
  | entry (e : Entry)
  | root (r : Root)
  deriving DecidableEq

namespace Record

def encode : Record → Bytes
  | .entry e => e.encode
  | .root r => r.encode

/-- The tag of the kind and version of a record. -/
def tag : Record → String
  | .entry _ => "github.com/jellevandenhooff/keytree.Entry-0.4"
  | .root _ => "github.com/jellevandenhooff/keytree.Root-0.1"

end Record

/-- The bytes signed for a digest of the kind that a tag names. -/
def signedMessage (digest : Digest) (tag : String) : Bytes := digest.toBytes ++ Bytes.ofString tag

section Hashing

variable [HashFunction]

def Entry.digest (e : Entry) : Digest := Digest.ofData e.encode

def Root.digest (r : Root) : Digest := Digest.ofData r.encode

def Record.digest (r : Record) : Digest := Digest.ofData r.encode

def Record.message (r : Record) : Bytes := signedMessage r.digest r.tag

/-- The digest of what a directory says about a name: the empty digest if it says nothing. -/
def Entry.digest? : Option Entry → Digest
  | none => .empty
  | some e => e.digest

end Hashing

section Signing

variable [SignatureScheme]

/-- The signature of a digest of the kind that `tag` names. -/
def PrivateKey.signDigest (key : PrivateKey) (digest : Digest) (tag : String) : Signature :=
  ⟨SignatureScheme.sign key.seed (signedMessage digest tag)⟩

def PublicKey.verifyDigest (key : PublicKey) (digest : Digest) (tag : String)
    (signature : Signature) : Bool :=
  SignatureScheme.verify key.bytes (signedMessage digest tag) signature.bytes

variable [HashFunction]

def PrivateKey.sign (key : PrivateKey) (record : Record) : Signature :=
  key.signDigest record.digest record.tag

def PublicKey.verify (key : PublicKey) (record : Record) (signature : Signature) : Bool :=
  key.verifyDigest record.digest record.tag signature

end Signing

/-- The private key of a token, if its own public key accepts what it signs. -/
def PrivateKey.forSigning [SignatureScheme] (token : String) : Except FormatError PrivateKey := do
  let key ← PrivateKey.ofToken token
  let probe := key.signDigest .empty "self-check"
  if !key.publicKey.verifyDigest .empty "self-check" probe then
    throw (.invalidKey Tag.privateKey .selfCheck)
  return key

end SignedDirectory
