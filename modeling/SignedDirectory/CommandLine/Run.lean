import SignedDirectory.Command.Basic
import SignedDirectory.CommandLine.Arguments
import SignedDirectory.Log.Directive
import SignedDirectory.Text.Terminal

/-!
# A run of the program

`run` is the whole program as a function of its arguments and of what it finds outside: environment
variables, files, the clock and random bytes. What it prints and logs is in its result.
-/

namespace SignedDirectory.CommandLine

variable [HashFunction] [SignatureScheme]

structure World where
  environment : String → Option String
  files : String → Option Bytes
  /-- Seconds since 1970. -/
  clock : Option UInt64
  random : Vector UInt8 32

inductive Ending where
  | done
  | failed (e : CommandError)
  | usage
  /-- A filter of log lines splits a character. -/
  | aborted
  deriving DecidableEq

def Ending.code : Ending → UInt8
  | .done => 0
  | .failed _ => 1
  | .usage => 2
  | .aborted => 101

inductive LogFormat where
  | pretty
  | json
  deriving DecidableEq

structure Run where
  ending : Ending
  output : String
  /-- The events that are shown. -/
  log : List Event
  format : LogFormat

def versionText : String := "keytree 0.4.0\n"

def helpText : String :=
  "Verify and sign keytree lookups\n\n" ++
  "Usage: keytree [-c FILE] [-d] COMMAND [OPTIONS]\n\n" ++
  "Commands:\n" ++
  "  verify     --lookup FILE --name NAME [--now SECONDS]\n" ++
  "  keygen     [--secret SECRET --salt SALT]\n" ++
  "  sign-root  --key KEY --root-hash HASH [--timestamp SECONDS]\n" ++
  "  vectors\n"

/-- Which events are shown: with debugging, all down to that level; else what the variable
`RUST_LOG` says, if it is set to a filter; else what the configuration says. There is no answer if
the variable splits a character. -/
def filterOf? (world : World) (invocation : Invocation) (config : Config) : Option Filter :=
  let configured :=
    Filter.ofLevel ((Level.all.find? fun l => l.word = config.logging.level).getD .warn)
  if invocation.isDebug then some (Filter.ofLevel .debug)
  else
    match (world.environment "RUST_LOG").map Filter.ofString with
    | none => some configured
    | some (.ok filter) => some filter
    | some (.error .malformed) => some configured
    | some (.error .splitsCharacter) => none

/-- Does what is asked for: what to print, or why it fails, and the events on the way. -/
def perform (world : World) (config : Config) :
    Request → Except CommandError String × List Event
  | .verify path name now =>
    let (result, log) := Command.verify path (world.files path) name now world.clock config
    (result.map Command.verifyOutput, log)
  | .keygen derivation =>
    (.ok (Command.keygenOutput (Command.keygen derivation world.random)), [])
  | .signRoot key rootHash timestamp =>
    ((Command.signRoot key rootHash timestamp world.clock).map fun signed =>
      (Json.toJson signed).pretty, [])
  | .vectors => ((Vectors.generate.map (·.pretty)).mapError .vectors, [])

/-- The configuration of an invocation: that of the file, or the one that says nothing. -/
def configOf (world : World) (invocation : Invocation) : Except CommandError Config :=
  match invocation.config with
  | some path =>
    (Config.ofFile world.environment path (world.files path)).mapError .configuration
  | none => .ok .default

def run (world : World) (arguments : List String) : Run :=
  match Invocation.ofArguments world.environment arguments with
  | .error .usage => ⟨.usage, "", [], .pretty⟩
  | .error .help => ⟨.done, helpText, [], .pretty⟩
  | .error .version => ⟨.done, versionText, [], .pretty⟩
  | .ok invocation =>
    match configOf world invocation with
    | .error e => ⟨.failed e, "", [], .pretty⟩
    | .ok config =>
      let format := if config.logging.format = "json" then LogFormat.json else .pretty
      match filterOf? world invocation config with
      | none => ⟨.aborted, "", [], format⟩
      | some filter =>
        let (result, log) := perform world config invocation.request
        let shown := log.filter filter.admits
        match result with
        | .error e => ⟨.failed e, "", shown, format⟩
        | .ok output => ⟨.done, output ++ "\n", shown, format⟩

/-- The message of an event as a log line shows it: a line that goes to a terminal as it is must
not steer it. -/
def LogFormat.message (format : LogFormat) (event : Event) : String :=
  match format with
  | .pretty => Text.harmless event.message
  | .json => event.message

def LogFormat.line (format : LogFormat) (event : Event) : String :=
  match format with
  | .pretty => s!"{event.level.label} {event.source}: {format.message event}"
  | .json => (Json.Value.object [("level", .string event.level.label),
      ("fields", .object [("message", .string (format.message event))]),
      ("target", .string event.source)]).compact

/-- What is said of a failure: the outermost text, and under it what stood in the way. -/
def errorText (e : CommandError) : String :=
  let texts := e.chain.map (·.getD "malformed JSON")
  match texts with
  | [] => "Error"
  | [text] => s!"Error: {text}"
  | text :: causes =>
    s!"Error: {text}\n\nCaused by:\n" ++ "\n".intercalate (causes.map fun c => s!"    {c}")

end SignedDirectory.CommandLine
