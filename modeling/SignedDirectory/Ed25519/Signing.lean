import SignedDirectory.Ed25519.Curve
import SignedDirectory.Sha512
import SignedDirectory.SignatureScheme

/-!
# Ed25519 signatures

Deterministic signing, in which the commitment depends on the seed and the message alone, and strict
verification: the scalar must be reduced, neither the public key nor the commitment may be of small
order, and the recomputed commitment must have exactly the bytes that the signature holds.
-/

namespace SignedDirectory.Ed25519

def groupOrder : Nat := Nat.pow 2 252 + 27742317777372353535851937790883648493

/-- SHA-512 of a message, as bytes. -/
def sha512 (message : Bytes) : Bytes := (Sha512.hash message).toBytes

/-- SHA-512 of a message, as a scalar. -/
def scalarHash (message : Bytes) : Nat := Bytes.toNatLE (sha512 message) % groupOrder

/-- What a seed expands to: the secret scalar, a multiple of eight of fixed bit length, and the
secret bytes from which commitments are made. -/
structure SecretKey where
  scalar : Nat
  nonceKey : Bytes

/-- The two halves of the hash of a seed, the first one with its lowest three bits and its top bit
cleared and the bit below that set. -/
def SecretKey.ofSeed (seed : Vector UInt8 32) : SecretKey :=
  let expanded := sha512 seed.toList
  let low := Bytes.toNatLE (expanded.take 32)
  ⟨low % Nat.pow 2 254 / 8 * 8 + Nat.pow 2 254, expanded.drop 32⟩

def publicKey (seed : Vector UInt8 32) : Vector UInt8 32 :=
  (Point.base.smul (SecretKey.ofSeed seed).scalar).encode

/-- The signature of a message: a commitment and the scalar that answers it. -/
def sign (seed : Vector UInt8 32) (message : Bytes) : Vector UInt8 64 :=
  let secret := SecretKey.ofSeed seed
  let nonce := scalarHash (secret.nonceKey ++ message)
  let commitment := (Point.base.smul nonce).encode
  let challenge := scalarHash (commitment.toList ++ (publicKey seed).toList ++ message)
  commitment ++ Bytes.littleEndian 32 ((nonce + challenge * secret.scalar) % groupOrder)

/-- Whether a signature is good under a public key, by the strict rules. -/
def verify (key : Vector UInt8 32) (message : Bytes) (signature : Vector UInt8 64) : Bool :=
  let commitment := (Bytes.halves signature).1
  let answer := Bytes.toNatLE (signature.toList.drop 32)
  match Point.decode? key, Point.decode? commitment with
  | some A, some R =>
    let challenge := scalarHash (commitment.toList ++ key.toList ++ message)
    answer < groupOrder && !R.isSmallOrder && !A.isSmallOrder &&
      ((Point.base.smul answer).add (A.neg.smul challenge)).encode = commitment
  | _, _ => false

instance : SignatureScheme where
  isKey key := (Point.decode? key).isSome
  publicKey := publicKey
  sign := sign
  verify := verify

end SignedDirectory.Ed25519
