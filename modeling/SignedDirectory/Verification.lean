import SignedDirectory.Log.Event
import SignedDirectory.Lookup
import SignedDirectory.Trust

/-!
# Verification of lookups

`Lookup.verify` accepts or rejects the answer to a question for a name. Every server that takes part
has to pass every check, whether it is trusted or not; after that, enough of the trusted keys have
to be among those that passed. The servers are checked in the order of their tokens, and the first
failure ends the verification.
-/

namespace SignedDirectory

variable [HashFunction] [SignatureScheme]

/-- Checks the proof of one server for a name with this key and an answer with this value: the
server's token, where the audit path leads, how old the signature is, and the signature. -/
def SignedPath.check (signed : SignedPath) (token : String) (key value : Digest)
    (cutoff : UInt64) : Except Rejection PublicKey := do
  let signer ← (PublicKey.ofToken token).mapError .format
  let root := signed.signedRoot.root
  let computed := signed.path.root key value
  if computed ≠ root.rootHash then throw (.badRootHash token computed root.rootHash)
  if root.timestamp < cutoff then throw (.staleSignature token root.timestamp cutoff)
  if !signed.signedRoot.verify signer then throw (.badSignature token)
  return signer

/-- What became of a lookup, and what was reported on the way. -/
structure Outcome where
  /-- What the directory says about the name, or why the lookup is rejected. -/
  verdict : Except Rejection (Option Entry)
  log : List Event

namespace Lookup

/-- Checks the servers in their order up to the first failure: the keys of all of them, or why the
first one that fails does, and the events up to there. -/
def checkAll (name : String) (key value : Digest) (cutoff : UInt64) :
    List (String × SignedPath) → Except Rejection (List PublicKey) × List Event
  | [] => (.ok [], [])
  | (token, signed) :: rest =>
    match signed.check token key value cutoff with
    | .error reason => (.error reason, [.rejected name reason])
    | .ok signer =>
      let (signers, log) := checkAll name key value cutoff rest
      ((signer :: ·) <$> signers, .signerVerified token name :: log)

/-- Whether a lookup answers the question for a name under some trust at a time, in seconds since
1970. -/
def verify (lookup : Lookup) (name : String) (trust : Trust) (now : UInt64) : Outcome :=
  let key := Digest.ofName name
  let value := Entry.digest? lookup.entry
  match checkAll name key value (trust.cutoff now) lookup.proofs.toList with
  | (.error reason, log) => ⟨.error reason, log⟩
  | (.ok signers, log) =>
    let valid := trust.count signers
    if valid < trust.threshold then
      let reason := Rejection.insufficientSignatures valid trust.threshold
      ⟨.error reason, log ++ [.rejected name reason]⟩
    else
      ⟨.ok lookup.entry, log ++ [.accepted name valid trust.keys.size lookup.entry.isSome]⟩

end Lookup

end SignedDirectory
