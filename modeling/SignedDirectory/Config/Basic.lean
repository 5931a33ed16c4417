import SignedDirectory.Config.Template
import SignedDirectory.Json.Value
import SignedDirectory.Log.Event
import SignedDirectory.Toml.Document
import SignedDirectory.Trust

/-!
# Configurations

A configuration says whom to trust and what to log. It is written in TOML with placeholders for
environment variables; both tables may be missing. `Config.ofText` and `Config.ofFile` read it and
check it, and `Config.toTrust` builds the trust it describes.
-/

namespace SignedDirectory

structure TrustSection where
  /-- Tokens of public keys. -/
  keys : List String
  threshold : Nat
  maxAge : UInt64
  deriving DecidableEq

structure LoggingSection where
  level : String
  format : String
  deriving DecidableEq

structure Config where
  trust : TrustSection
  logging : LoggingSection
  deriving DecidableEq

namespace Config

/-- The trust of a configuration that does not say whom to trust. -/
def defaultTrust : TrustSection :=
  ⟨Trust.wellKnownTokens, Trust.wellKnownThreshold, Trust.defaultMaxAge⟩

/-- The logging of a configuration that does not say what to log. -/
def defaultLogging : LoggingSection := ⟨"warn", "pretty"⟩

def default : Config := ⟨defaultTrust, defaultLogging⟩

instance : Inhabited Config := ⟨default⟩

/-! ## Errors -/

inductive Defect where
  | noKeys
  /-- The token at an index is no public key. -/
  | badKey (index : Nat) (token : String) (e : FormatError)
  | zeroThreshold
  | thresholdExceeds (threshold keys : Nat)
  | badLevel (level : String)
  | badFormat (format : String)
  deriving DecidableEq

def levels : List String := Level.all.map Level.word

def formats : List String := ["json", "pretty"]

def Defect.message : Defect → String
  | .noKeys => "Trust keys cannot be empty"
  | .badKey index token _ => s!"Trust key #{index} is not a valid public key: {token}"
  | .zeroThreshold => "Trust threshold must be at least 1"
  | .thresholdExceeds threshold keys =>
    s!"Trust threshold {threshold} exceeds the number of keys ({keys})"
  | .badLevel level =>
    let choices := ", ".intercalate levels
    s!"Logging level must be one of: {choices} (got '{level}')"
  | .badFormat format =>
    let choices := ", ".intercalate formats
    s!"Logging format must be one of: {choices} (got '{format}')"

inductive Origin where
  | text
  | file (path : String)
  deriving DecidableEq

inductive LoadError where
  /-- The file cannot be read, or is no text. -/
  | unreadable (path : String)
  | template (e : TemplateError)
  /-- The text is no TOML, or its values have the wrong types. -/
  | toml (origin : Origin)
  | defect (d : Defect)
  deriving DecidableEq

/-! ## Reading -/

/-- A part of a structure: the member of a table by its name, or the element of an array by its
place. A date is a structure without any known part. The outer `none` stands for a value that is no
structure. -/
def part? (v : Toml.Value) (index : Nat) (name : String) : Option (Option Toml.Value) :=
  match v with
  | .table _ members => some (Toml.Table.find? name members)
  | .array elements => some elements[index]?
  | .tables earlier last =>
    some ((earlier ++ [last])[index]?.map fun members => .table .header members)
  | .moment => some none
  | _ => none

def text? : Toml.Value → Option String
  | .string s => some s
  | _ => none

def texts? : Toml.Value → Option (List String)
  | .array elements => elements.mapM text?
  | _ => none

def natural? : Toml.Value → Option Nat
  | .integer (.ofNat n) => some n
  | _ => none

/-- Reads a part that has to be there. -/
def requiredPart? {α : Type} (read : Toml.Value → Option α) (part : Option Toml.Value) :
    Option α :=
  part.bind read

/-- Reads a part with a value for when it is missing. -/
def optionalPart? {α : Type} (read : Toml.Value → Option α) (absent : α)
    (part : Option Toml.Value) : Option α :=
  match part with
  | some v => read v
  | none => some absent

/-- The section on trust: keys and threshold have to be there. -/
def trustSection? (v : Toml.Value) : Option TrustSection := do
  let keys ← requiredPart? texts? (← part? v 0 "keys")
  let threshold ← requiredPart? natural? (← part? v 1 "threshold")
  let maxAge ← optionalPart? (fun v => (natural? v).map Nat.toUInt64) Trust.defaultMaxAge
    (← part? v 2 "max_signature_age_secs")
  return ⟨keys, threshold, maxAge⟩

/-- The section on logging, all of which may be missing. -/
def loggingSection? (v : Toml.Value) : Option LoggingSection := do
  let level ← optionalPart? text? defaultLogging.level (← part? v 0 "level")
  let format ← optionalPart? text? defaultLogging.format (← part? v 1 "format")
  return ⟨level, format⟩

def ofTable? (root : Toml.Table) : Option Config := do
  let trust ← optionalPart? trustSection? defaultTrust (root.find? "trust")
  let logging ← optionalPart? loggingSection? defaultLogging (root.find? "logging")
  return ⟨trust, logging⟩

section

variable [SignatureScheme]

def firstBadKey? (index : Nat) : List String → Option Defect
  | [] => none
  | token :: rest =>
    match PublicKey.ofToken token with
    | .ok _ => firstBadKey? (index + 1) rest
    | .error e => some (.badKey index token e)

def defect? (config : Config) : Option Defect :=
  if config.trust.keys = [] then some .noKeys
  else match firstBadKey? 0 config.trust.keys with
    | some d => some d
    | none =>
      if config.trust.threshold = 0 then some .zeroThreshold
      else if config.trust.threshold > config.trust.keys.length then
        some (.thresholdExceeds config.trust.threshold config.trust.keys.length)
      else if !levels.contains config.logging.level then some (.badLevel config.logging.level)
      else if !formats.contains config.logging.format then
        some (.badFormat config.logging.format)
      else none

/-- The configuration in a text from somewhere, once its placeholders are filled. -/
def load (origin : Origin) (environment : Environment) (text : String) :
    Except LoadError Config := do
  let filled ← ((Template.ofString text).fill environment).mapError .template
  match (Toml.Table.ofString? filled).bind ofTable? with
  | none => throw (.toml origin)
  | some config =>
    match config.defect? with
    | some d => throw (.defect d)
    | none => return config

def ofText (environment : Environment) (text : String) : Except LoadError Config :=
  load .text environment text

def ofFile (environment : Environment) (path : String) (contents : Option Bytes) :
    Except LoadError Config :=
  match contents.bind Bytes.toString? with
  | some text => load (.file path) environment text
  | none => .error (.unreadable path)

def toTrust (config : Config) : Except TrustError Trust :=
  (Trust.ofTokens config.trust.keys config.trust.threshold).map
    (·.withMaxAge config.trust.maxAge)

end

def toJson (config : Config) : Json.Value :=
  .object [
    ("trust", .object [
      ("keys", .array (config.trust.keys.map .string)),
      ("threshold", .number config.trust.threshold),
      ("max_signature_age_secs", .number config.trust.maxAge.toNat)]),
    ("logging", .object [
      ("level", .string config.logging.level),
      ("format", .string config.logging.format)])]

end Config

end SignedDirectory
