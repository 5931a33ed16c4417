import SignedDirectory.Bytes

/-!
# Signature schemes

The signature scheme is a parameter of everything that signs and verifies, as the hash function is
of everything that hashes. Its keys and signatures are byte vectors here; `Key` gives them types.
-/

namespace SignedDirectory

/-- A signature scheme with 32-byte seeds and public keys and 64-byte signatures. -/
class SignatureScheme where
  /-- Whether the bytes are an encoding of a public key. -/
  isKey : Vector UInt8 32 → Bool
  /-- The public key that belongs to a seed. -/
  publicKey : Vector UInt8 32 → Vector UInt8 32
  /-- The signature of a message by the key of a seed. -/
  sign : Vector UInt8 32 → Bytes → Vector UInt8 64
  /-- Whether a signature of a message is good under a public key. -/
  verify : Vector UInt8 32 → Bytes → Vector UInt8 64 → Bool

end SignedDirectory
