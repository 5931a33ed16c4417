import SignedDirectory.Config.Basic
import SignedDirectory.Json.Fault

/-!
# Why a command fails

Every failure is a chain of texts, from what could not be done to what stood in the way. What the
operating system or the reader of TOML has to say is not part of it.
-/

namespace SignedDirectory

def Config.LoadError.chain : Config.LoadError → List String
  | .unreadable path => [s!"Failed to read config file: {path}"]
  | .template (.unset name position) =>
    [(Config.TemplateError.unset name position).message, "environment variable not found"]
  | .template e => [e.message]
  | .toml .text => ["Failed to parse TOML configuration"]
  | .toml (.file path) => [s!"Failed to parse config file: {path}"]
  | .defect (.badKey index token e) =>
    [(Config.Defect.badKey index token e).message, e.message]
  | .defect d => [d.message]

inductive CommandError where
  | configuration (e : Config.LoadError)
  | unreadable (path : String)
  /-- The file of a lookup holds none. -/
  | noLookup (path : String) (fault : Json.Fault)
  | trust (e : TrustError)
  | rejected (name : String) (reason : Rejection)
  | badKey (e : FormatError)
  | badRootHash (e : FormatError)
  | vectors (e : PathError)
  | clock
  deriving DecidableEq

namespace CommandError

/-- The chain of texts of a failure; `none` stands for the text of a malformed file. -/
def chain : CommandError → List (Option String)
  | .configuration e => some "Failed to load configuration" :: e.chain.map some
  | .unreadable path => [some s!"read {path}"]
  | .noLookup path fault => [some s!"parse JSON {path}", fault.message?]
  | .trust e => [some "Invalid trust configuration", some e.message]
  | .rejected name reason => [some s!"lookup for {name} rejected", some reason.message]
  | .badKey e => [some "invalid --key", some e.message]
  | .badRootHash e => [some "invalid --root-hash", some e.message]
  | .vectors e => [some e.message]
  | .clock => [some "System clock is before the Unix epoch"]

def message (e : CommandError) : String := (e.chain.head?.bind id).getD ""

end CommandError

end SignedDirectory
