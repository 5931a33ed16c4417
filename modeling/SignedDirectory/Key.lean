import SignedDirectory.Digest
import SignedDirectory.SignatureScheme

/-!
# Keys and signatures

The kinds of key material that a directory carries, each with its token form `tag(token)`. Reading a
token accepts exactly what rendering writes: the tag, the length and, where a kind has further
conditions, those too. Keys for boxes are carried along only; nothing here opens a box.
-/

namespace SignedDirectory

/-- A kind of value with a textual form. -/
class TokenForm (α : Type) where
  toToken : α → String
  ofToken : String → Except FormatError α

export TokenForm (toToken)

/-! ## Tags of the wrapped kinds -/

namespace Tag

def publicKey : String := "ed25519-pub"
def privateKey : String := "ed25519-priv"
def signature : String := "ed25519-sig"
def boxPublicKey : String := "box-pub"
def boxPrivateKey : String := "box-priv"
def sealedBox : String := "box-box"

end Tag

instance : TokenForm Digest := ⟨Digest.toToken, Digest.ofToken⟩

def Bytes.describe (bytes : Bytes) : String :=
  "[" ++ ", ".intercalate (bytes.map fun b => toString b.toNat) ++ "]"

def Digest.describe (d : Digest) : String := s!"Hash({d.toToken})"

/-! ## Public keys -/

/-- A public key, held as its encoding. -/
structure PublicKey where
  bytes : Vector UInt8 32
  deriving DecidableEq

namespace PublicKey

/-- Public keys are ordered by their bytes, the first one first. -/
instance : Ord PublicKey := ⟨fun a b => compare a.bytes b.bytes⟩

instance : Std.TransOrd PublicKey where
  eq_swap {a b} := @Std.OrientedCmp.eq_swap _ compare _ a.bytes b.bytes
  isLE_trans {a b c} := @Std.TransCmp.isLE_trans _ compare _ a.bytes b.bytes c.bytes

instance : Std.LawfulEqOrd PublicKey where
  compare_self {a} := @Std.ReflCmp.compare_self _ compare _ a.bytes
  eq_of_compare {a b} h := by
    have h : a.bytes = b.bytes := @Std.LawfulEqCmp.eq_of_compare _ compare _ _ _ h
    cases a; cases b; cases h; rfl

def toToken (key : PublicKey) : String := Token.wrap key.bytes.toList Tag.publicKey

variable [SignatureScheme]

def ofVector (bytes : Vector UInt8 32) : Except FormatError PublicKey :=
  if SignatureScheme.isKey bytes then .ok ⟨bytes⟩
  else .error (.invalidKey Tag.publicKey .offCurve)

def ofToken (token : String) : Except FormatError PublicKey :=
  Token.unwrapFixed 32 token Tag.publicKey >>= ofVector

instance : TokenForm PublicKey := ⟨toToken, ofToken⟩

end PublicKey

/-! ## Private keys -/

/-- A private key, held as its seed. -/
structure PrivateKey where
  seed : Vector UInt8 32
  deriving DecidableEq

namespace PrivateKey

variable [SignatureScheme]

def publicKey (key : PrivateKey) : PublicKey := ⟨SignatureScheme.publicKey key.seed⟩

/-- A private key is written as its seed followed by its public key. -/
def toToken (key : PrivateKey) : String :=
  Token.wrap (key.seed.toList ++ key.publicKey.bytes.toList) Tag.privateKey

/-- The key of a seed and a public key that belong together. -/
def ofHalves (seed key : Vector UInt8 32) : Except FormatError PrivateKey :=
  if !SignatureScheme.isKey key then .error (.invalidKey Tag.privateKey .offCurve)
  else if SignatureScheme.publicKey seed ≠ key then
    .error (.invalidKey Tag.privateKey .mismatchedHalves)
  else .ok ⟨seed⟩

def ofToken (token : String) : Except FormatError PrivateKey := do
  let bytes ← Token.unwrapFixed 64 token Tag.privateKey
  let (seed, key) := Bytes.halves bytes
  ofHalves seed key

instance : TokenForm PrivateKey := ⟨toToken, ofToken⟩

def describe (key : PrivateKey) : String := s!"PrivateKey({key.publicKey.toToken})"

end PrivateKey

/-! ## Signatures -/

structure Signature where
  bytes : Vector UInt8 64
  deriving DecidableEq

namespace Signature

def toToken (signature : Signature) : String :=
  Token.wrap signature.bytes.toList Tag.signature

def ofToken (token : String) : Except FormatError Signature :=
  Signature.mk <$> Token.unwrapFixed 64 token Tag.signature

instance : TokenForm Signature := ⟨toToken, ofToken⟩

end Signature

/-! ## Box keys and sealed boxes -/

structure BoxPublicKey where
  bytes : Vector UInt8 32
  deriving DecidableEq

namespace BoxPublicKey

def toToken (key : BoxPublicKey) : String := Token.wrap key.bytes.toList Tag.boxPublicKey

def ofToken (token : String) : Except FormatError BoxPublicKey :=
  BoxPublicKey.mk <$> Token.unwrapFixed 32 token Tag.boxPublicKey

instance : TokenForm BoxPublicKey := ⟨toToken, ofToken⟩

def describe (key : BoxPublicKey) : String := s!"BoxPublicKey({Bytes.describe key.bytes.toList})"

end BoxPublicKey

structure BoxPrivateKey where
  bytes : Vector UInt8 32
  deriving DecidableEq

namespace BoxPrivateKey

def toToken (key : BoxPrivateKey) : String := Token.wrap key.bytes.toList Tag.boxPrivateKey

def ofToken (token : String) : Except FormatError BoxPrivateKey :=
  BoxPrivateKey.mk <$> Token.unwrapFixed 32 token Tag.boxPrivateKey

instance : TokenForm BoxPrivateKey := ⟨toToken, ofToken⟩

/-- The description of a private box key does not show it. -/
def describe (_ : BoxPrivateKey) : String := "BoxPrivateKey(..)"

end BoxPrivateKey

def nonceSize : Nat := 24

/-- A sealed box: a nonce followed by the ciphertext. -/
structure SealedBox where
  bytes : Bytes
  holds_nonce : nonceSize ≤ bytes.length
  deriving DecidableEq

namespace SealedBox

/-- A sealed box is at least as long as its nonce. -/
def ofBytes (bytes : Bytes) : Except FormatError SealedBox :=
  if h : nonceSize ≤ bytes.length then .ok ⟨bytes, h⟩
  else .error (.wrongSize Tag.sealedBox nonceSize bytes.length)

def nonce (box : SealedBox) : Bytes := box.bytes.take nonceSize

def ciphertext (box : SealedBox) : Bytes := box.bytes.drop nonceSize

def toToken (box : SealedBox) : String := Token.wrap box.bytes Tag.sealedBox

def ofToken (token : String) : Except FormatError SealedBox :=
  Token.unwrap token Tag.sealedBox >>= ofBytes

instance : TokenForm SealedBox := ⟨toToken, ofToken⟩

def describe (box : SealedBox) : String := s!"SealedBox({Bytes.describe box.bytes})"

end SealedBox

end SignedDirectory
