import SignedDirectory.Digest

/-!
# Events of a verification

A verification reports what it does as a list of events. `Rejection` says why a lookup is rejected,
and `Event.message` words every event; its level and its source tell a `Filter` whether the event is
to be shown.
-/

namespace SignedDirectory

/-- Why a lookup is rejected. Servers are named by their tokens. -/
inductive Rejection where
  | format (e : FormatError)
  /-- The audit path leads to another root than the signed one. -/
  | badRootHash (token : String) (computed signed : Digest)
  /-- The root was signed before the oldest acceptable time. -/
  | staleSignature (token : String) (timestamp cutoff : UInt64)
  | badSignature (token : String)
  | insufficientSignatures (valid threshold : Nat)
  deriving DecidableEq

def Rejection.message : Rejection → String
  | .format e => e.message
  | .badRootHash token computed signed =>
    s!"Bad root hash from {token}: audit path folds to {computed}, signed root is {signed}"
  | .staleSignature token timestamp cutoff =>
    s!"Stale signature from {token}: root timestamp {timestamp} is before cutoff {cutoff}"
  | .badSignature token => s!"Bad signature from {token}"
  | .insufficientSignatures valid threshold =>
    s!"Insufficient signatures: {valid} trusted signers, need {threshold}"

/-- How important an event is, the most important first. -/
inductive Level where
  | error
  | warn
  | info
  | debug
  | trace
  deriving DecidableEq, Repr

namespace Level

/-- The place of a level, counted from one. -/
def rank : Level → Nat
  | .error => 1
  | .warn => 2
  | .info => 3
  | .debug => 4
  | .trace => 5

def label : Level → String
  | .error => "ERROR"
  | .warn => "WARN"
  | .info => "INFO"
  | .debug => "DEBUG"
  | .trace => "TRACE"

def word : Level → String
  | .error => "error"
  | .warn => "warn"
  | .info => "info"
  | .debug => "debug"
  | .trace => "trace"

def all : List Level := [.trace, .debug, .info, .warn, .error]

end Level

inductive Event where
  | verifying (name : String) (keys threshold : Nat)
  | signerVerified (token name : String)
  | rejected (name : String) (reason : Rejection)
  /-- `valid` of the `trusted` keys vouch for the answer. -/
  | accepted (name : String) (valid trusted : Nat) (isPresent : Bool)
  deriving DecidableEq

namespace Event

/-- How important an event is: a rejection warns, and a server that passes matters only for
debugging. -/
def level : Event → Level
  | .verifying _ _ _ => .info
  | .signerVerified _ _ => .debug
  | .rejected _ _ => .warn
  | .accepted _ _ _ _ => .info

def source : Event → String
  | .verifying _ _ _ => "keytree_cli::cmd::verify"
  | _ => "keytree_verifier"

def message : Event → String
  | .verifying name keys threshold =>
    s!"Verifying {name} against {keys} trusted keys (threshold {threshold})"
  | .signerVerified token name => s!"Signer {token} verified for {name}"
  | .rejected name reason => s!"Rejecting lookup for {name}: {reason.message}"
  | .accepted name valid trusted isPresent =>
    let answer := if isPresent then "present" else "absent"
    s!"Verified lookup for {name} ({valid} of {trusted} trusted signers, {answer})"

end Event

end SignedDirectory
