import SignedDirectory.Key
import SignedDirectory.SortedMap

/-!
# Trust

Whom a reader of lookups trusts: a set of keys, how many of them have to vouch for an answer, and
how old their signatures may be. At least one key has to vouch, and no more than there are.
-/

namespace SignedDirectory

/-- Why no trust can be built from some tokens and a threshold. -/
inductive TrustError where
  | format (e : FormatError)
  | zeroThreshold
  /-- More keys have to vouch than there are. -/
  | thresholdExceeds (threshold keys : Nat)
  deriving DecidableEq

def TrustError.message : TrustError → String
  | .format e => e.message
  | .zeroThreshold => "Invalid trust configuration: threshold must be at least 1"
  | .thresholdExceeds threshold keys =>
    s!"Invalid trust configuration: threshold {threshold} exceeds the {keys} configured keys"

/-- The keys that are trusted, how many of them have to vouch, and for how long a signature
counts. -/
structure Trust where
  keys : SortedSet PublicKey
  threshold : Nat
  /-- The greatest age of a signature, in seconds. -/
  maxAge : UInt64
  threshold_pos : 0 < threshold
  threshold_le_size : threshold ≤ keys.size
  deriving DecidableEq

namespace Trust

def defaultMaxAge : UInt64 := 60

/-- Trust in `threshold` of the keys; a key that is listed twice is one key. -/
def ofKeys (keys : List PublicKey) (threshold : Nat) : Except TrustError Trust :=
  let keys := SortedSet.ofList keys
  if h : 0 < threshold then
    if h' : threshold ≤ keys.size then .ok ⟨keys, threshold, defaultMaxAge, h, h'⟩
    else .error (.thresholdExceeds threshold keys.size)
  else .error .zeroThreshold

def withMaxAge (trust : Trust) (maxAge : UInt64) : Trust := { trust with maxAge }

def trusts (trust : Trust) (key : PublicKey) : Bool := trust.keys.contains key

/-- How many of the trusted keys are among the given ones. -/
def count (trust : Trust) (keys : List PublicKey) : Nat := trust.keys.keys.countP (keys.contains ·)

/-- The oldest time at which a signature may have been made that counts now. -/
def cutoff (trust : Trust) (now : UInt64) : UInt64 :=
  if trust.maxAge ≤ now then now - trust.maxAge else 0

/-- The hosts that serve the public directory, each with the token of its key. -/
def wellKnownServers : List (String × String) :=
  [("keytree.io", "ed25519-pub(26wj522ncyprkc0t9yr1e1cz2szempbddkay02qqqxqkjnkbnygg)"),
    ("mzero.org", "ed25519-pub(53y84fc8acd8z1t0ckwvtc1nc2srrgrkee5mwtxvtdqytpwrc36g)"),
    ("thesquareplanet.com", "ed25519-pub(9rr08e8hf82xfkpx944xht4asksasfgnxj8fxkmf3tczeaj1v7q0)")]

def wellKnownTokens : List String := wellKnownServers.map (·.2)

/-- How many of the well-known servers have to vouch. -/
def wellKnownThreshold : Nat := 2

variable [SignatureScheme]

def ofTokens (tokens : List String) (threshold : Nat) : Except TrustError Trust := do
  let keys ← (tokens.mapM PublicKey.ofToken).mapError .format
  ofKeys keys threshold

def wellKnown : Except TrustError Trust := ofTokens wellKnownTokens wellKnownThreshold

end Trust

end SignedDirectory
