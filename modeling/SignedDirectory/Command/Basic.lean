import SignedDirectory.Command.Error
import SignedDirectory.Scrypt
import SignedDirectory.Vectors
import SignedDirectory.Verification

/-!
# Commands

What the commands do, as functions of what they find outside: the contents of files, the clock and
fresh random bytes. Verifying also reports events.
-/

namespace SignedDirectory.Command

open Json

variable [HashFunction] [SignatureScheme]

/-- Verifies the lookup in a file. Without a time that is given, the clock counts. -/
def verify (path : String) (contents : Option Bytes) (name : String) (now? clock : Option UInt64)
    (config : Config) : Except CommandError (Option Entry) × List Event :=
  let prepared : Except CommandError (Lookup × Trust × UInt64) := do
    let some bytes := contents | throw (.unreadable path)
    let lookup ← (ofBytes Lookup bytes).mapError (.noLookup path)
    let trust ← config.toTrust.mapError .trust
    let some now := now? <|> clock | throw .clock
    return (lookup, trust, now)
  match prepared with
  | .error e => (.error e, [])
  | .ok (lookup, trust, now) =>
    let outcome := lookup.verify name trust now
    (outcome.verdict.mapError (.rejected name),
      .verifying name trust.keys.size trust.threshold :: outcome.log)

def verifyOutput : Option Entry → String
  | some entry => (toJson entry).pretty
  | none => "absent"

def deriveKey (secret salt : String) : PrivateKey :=
  let derived := Scrypt.derive (Bytes.ofString secret) (Bytes.ofString salt) 16384 8 32
  ⟨Vector.ofFn fun i => derived.getD i 0⟩

/-- The key of a secret and a salt, or a key from fresh random bytes. -/
def keygen (derivation : Option (String × String)) (random : Vector UInt8 32) : PrivateKey :=
  match derivation with
  | some (secret, salt) => deriveKey secret salt
  | none => ⟨random⟩

def keygenOutput (key : PrivateKey) : String :=
  (Value.object [("private", .string key.toToken),
    ("public", .string key.publicKey.toToken)]).pretty

/-- Signs a root. Without a time that is given, the clock counts. -/
def signRoot (key rootHash : String) (timestamp? clock : Option UInt64) :
    Except CommandError SignedRoot := do
  let key ← (PrivateKey.forSigning key).mapError .badKey
  let rootHash ← (Digest.ofToken rootHash).mapError .badRootHash
  let some timestamp := timestamp? <|> clock | throw .clock
  return .sign key ⟨rootHash, timestamp⟩

end SignedDirectory.Command
