import SignedDirectory.Text.Quoted

/-!
# Faults of textual values

`FormatError` names every way in which the text or the bytes of a digest, key or signature can be
wrong, and `FormatError.message` words it.
-/

namespace SignedDirectory

/-- Why key material of the right length is refused. -/
inductive KeyFault where
  /-- The bytes are no encoding of a curve point. -/
  | offCurve
  /-- The public half is not the public key of the seed. -/
  | mismatchedHalves
  /-- The key refuses a signature that it has just made. -/
  | selfCheck
  deriving DecidableEq, Repr

def KeyFault.message : KeyFault → String
  | .offCurve => "signature error: Cannot decompress Edwards point"
  | .mismatchedHalves => "signature error: Mismatched Keypair detected"
  | .selfCheck => "key does not verify its own signature"

/-- A textual value that does not decode, or bytes that are no value of their kind. -/
inductive FormatError where
  /-- A character outside the token alphabet, at a byte offset into the token. -/
  | invalidCharacter (ch : Char) (position : Nat)
  /-- No byte string has a token of this length. -/
  | invalidLength (length : Nat)
  /-- Bits beyond the last whole byte are set. -/
  | nonCanonical
  /-- The text is not of the form `tag(...)`. -/
  | badWrapper (tag : String)
  | wrongSize (what : String) (expected actual : Nat)
  | invalidKey (what : String) (fault : KeyFault)
  deriving DecidableEq, Repr

def FormatError.message : FormatError → String
  | .invalidCharacter ch position =>
    s!"Invalid token character {Text.quotedChar ch} at position {position}"
  | .invalidLength length => s!"Invalid token length: {length}"
  | .nonCanonical => "Non-canonical token (trailing bits set)"
  | .badWrapper tag => s!"Expected a {tag}(...) wrapper"
  | .wrongSize what expected actual =>
    s!"Wrong length for {what}: expected {expected} bytes, got {actual}"
  | .invalidKey what fault => s!"Invalid {what}: {fault.message}"

end SignedDirectory
