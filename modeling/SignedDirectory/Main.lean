import SignedDirectory.CommandLine.Run
import SignedDirectory.Ed25519.Signing
import SignedDirectory.Sha512
import Std.Time.DateTime.Timestamp

/-!
# The program

Reads what a run needs from outside, and prints what it leaves behind.
-/

open SignedDirectory SignedDirectory.CommandLine

def readFile? (path : String) : IO (Option Bytes) := do
  try return some (← IO.FS.readBinFile path).data.toList
  catch _ => return none

def filesOf (invocation : Invocation) : List String :=
  invocation.config.toList ++
    match invocation.request with
    | .verify path _ _ => [path]
    | _ => []

/-- The values of the environment variables that a text names. -/
def variablesOf (text : String) : List String :=
  (Config.Template.ofString text).pieces.filterMap fun
    | .placeholder name _ => some name
    | _ => none

/-- Runs the program: output goes to standard output, log lines and errors to standard error. -/
def main (arguments : List String) : IO UInt32 := do
  let fixed ← ["KEYTREE_SECRET", "KEYTREE_SIGNING_KEY", "RUST_LOG"].mapM fun name => do
    return (name, ← IO.getEnv name)
  let invocation? := Invocation.ofArguments (fun name => (fixed.lookup name).join) arguments
  let paths := match invocation? with
    | .ok invocation => filesOf invocation
    | .error _ => []
  let files ← paths.mapM fun path => do return (path, ← readFile? path)
  let names := files.flatMap fun (_, contents) =>
    ((contents.bind Bytes.toString?).map variablesOf).getD []
  let values ← names.mapM fun name => do return (name, ← IO.getEnv name)
  let now ← Std.Time.Timestamp.now
  let random ← IO.getRandomBytes 32
  let seconds := now.toSecondsSinceUnixEpoch.val
  let world : World := {
    environment := fun name => ((values ++ fixed).lookup name).join
    files := fun path => (files.lookup path).join
    clock := if 0 ≤ seconds then some seconds.toNat.toUInt64 else none
    random := Vector.ofFn fun i => random.data.getD i 0 }
  let result := run world arguments
  for event in result.log do IO.eprintln (result.format.line event)
  IO.print result.output
  match result.ending with
  | .done => pure ()
  | .failed e => IO.eprintln (errorText e)
  | .usage => IO.eprintln helpText
  | .aborted => IO.eprintln "Error: a part of RUST_LOG begins or ends inside a character"
  return result.ending.code.toUInt32
