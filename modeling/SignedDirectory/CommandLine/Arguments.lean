import SignedDirectory.Decimal

/-!
# Arguments of the command line

`Invocation.ofArguments` reads the arguments of the program. Options are given as `--name value`,
`--name=value`, `-n value` or `-nvalue`; some of them may come from an environment variable instead.
The options `config` and `debug` may stand before the command or after it. A value that is a word of
its own begins with a hyphen only if it is a single hyphen.
-/

namespace SignedDirectory.CommandLine

inductive Opt where
  | config
  | debug
  | help
  | version
  | lookup
  | name
  | now
  | secret
  | salt
  | key
  | rootHash
  | timestamp
  deriving DecidableEq

inductive OptKind where
  | flag
  /-- A text that is not empty. -/
  | path
  | text
  | number
  deriving DecidableEq

namespace Opt

def long : Opt → String
  | .config => "config"
  | .debug => "debug"
  | .help => "help"
  | .version => "version"
  | .lookup => "lookup"
  | .name => "name"
  | .now => "now"
  | .secret => "secret"
  | .salt => "salt"
  | .key => "key"
  | .rootHash => "root-hash"
  | .timestamp => "timestamp"

def short? : Opt → Option Char
  | .config => some 'c'
  | .debug => some 'd'
  | .help => some 'h'
  | .version => some 'V'
  | _ => none

def kind : Opt → OptKind
  | .debug => .flag
  | .help => .flag
  | .version => .flag
  | .config => .path
  | .lookup => .path
  | .now => .number
  | .timestamp => .number
  | _ => .text

/-- The environment variable that may give the value of an option. -/
def environmentName? : Opt → Option String
  | .secret => some "KEYTREE_SECRET"
  | .key => some "KEYTREE_SIGNING_KEY"
  | _ => none

end Opt

def number? (text : String) : Option UInt64 :=
  (Decimal.toNatBelow? UInt64.size text).map Nat.toUInt64

inductive Stop where
  | usage
  | help
  | version
  deriving DecidableEq

/-- The options that were given, with their values; that of a flag is empty. -/
abbrev Given := List (Opt × String)

def OptKind.accepts (value : String) : OptKind → Bool
  | .path => value ≠ ""
  | .number => (number? value).isSome
  | _ => true

namespace Given

def value? (given : Given) (o : Opt) : Option String := given.lookup o

/-- Takes in an option with its value. An option is given only once, and asking for help or for the
version ends the reading. -/
def add (given : Given) (o : Opt) (value : String) : Except Stop Given :=
  if o = .help then .error .help
  else if o = .version then .error .version
  else if (given.value? o).isSome || !o.kind.accepts value then .error .usage
  else .ok ((o, value) :: given)

end Given

/-- What options in one argument leave: what was given, and an option that still wants a value. -/
abbrev Pending := Given × Option Opt

/-- Takes in the letters after a single hyphen. The rest of the argument after an option that takes
a value is that value, perhaps after an equals sign. -/
def readLetters (allowed : List Opt) (given : Given) : List Char → Except Stop Pending
  | [] => .ok (given, none)
  | letter :: rest =>
    match allowed.find? fun o => o.short? = some letter with
    | none => .error .usage
    | some o =>
      if o.kind = .flag then do readLetters allowed (← given.add o "") rest
      else
        match rest with
        | [] => .ok (given, some o)
        | '=' :: value => do return (← given.add o (String.ofList value), none)
        | value => do return (← given.add o (String.ofList value), none)

def readLong (allowed : List Opt) (given : Given) (chars : List Char) : Except Stop Pending :=
  let name := String.ofList (chars.takeWhile (· ≠ '='))
  match allowed.find? fun o => o.long = name with
  | none => .error .usage
  | some o =>
    match chars.dropWhile (· ≠ '='), o.kind with
    | [], .flag => do return (← given.add o "", none)
    | [], _ => .ok (given, some o)
    | _, .flag => .error .usage
    | _ :: value, _ => do return (← given.add o (String.ofList value), none)

/-- Whether an argument is taken for options. -/
def isOption (argument : String) : Bool := argument.startsWith "-" && argument ≠ "-"

/-- Takes in options up to the first argument that is none; `isEnd` tells that two hyphens have
ended the options, after which nothing may follow. -/
def readOptions (allowed : List Opt) (given : Given) :
    List String → Except Stop (Given × List String)
  | [] => .ok (given, [])
  | argument :: rest =>
    if argument = "--" then if rest = [] then .ok (given, []) else .error .usage
    else
      let read : Option (Except Stop Pending) := match argument.toList with
        | '-' :: '-' :: chars => some (readLong allowed given chars)
        | ['-'] => none
        | '-' :: letters => some (readLetters allowed given letters)
        | _ => none
      match read, rest with
      | none, _ => .ok (given, argument :: rest)
      | some (.error stop), _ => .error stop
      | some (.ok (given, none)), rest => readOptions allowed given rest
      | some (.ok (_, some _)), [] => .error .usage
      | some (.ok (given, some o)), value :: rest =>
        if isOption value then .error .usage
        else
          match given.add o value with
          | .error stop => .error stop
          | .ok given => readOptions allowed given rest

inductive Request where
  | verify (lookup name : String) (now : Option UInt64)
  | keygen (derivation : Option (String × String))
  | signRoot (key rootHash : String) (timestamp : Option UInt64)
  | vectors
  deriving DecidableEq

def commands : List (String × List Opt) :=
  [("verify", [.lookup, .name, .now]), ("keygen", [.secret, .salt]),
    ("sign-root", [.key, .rootHash, .timestamp]), ("vectors", [])]

/-- The value of an option from the arguments or else from the environment. -/
def valueOf? (environment : String → Option String) (given : Given) (o : Opt) : Option String :=
  given.value? o <|> o.environmentName?.bind environment

def Request.ofOptions? (command : String) (value? : Opt → Option String) : Option Request :=
  match command with
  | "verify" => do
    return .verify (← value? .lookup) (← value? .name) ((value? .now).bind number?)
  | "keygen" =>
    match value? .secret, value? .salt with
    | some secret, some salt => some (.keygen (some (secret, salt)))
    | none, none => some (.keygen none)
    | _, _ => none
  | "sign-root" => do
    return .signRoot (← value? .key) (← value? .rootHash) ((value? .timestamp).bind number?)
  | "vectors" => some .vectors
  | _ => none

structure Invocation where
  config : Option String
  isDebug : Bool
  request : Request
  deriving DecidableEq

/-- The answer to a question for help on some commands. -/
def helpFor : List String → Stop
  | [] => .help
  | [command] => if command = "help" ∨ (commands.lookup command).isSome then .help else .usage
  | _ => .usage

/-- What the arguments ask for in an environment. An option after the command counts more than one
before it. -/
def Invocation.ofArguments (environment : String → Option String) (arguments : List String) :
    Except Stop Invocation := do
  let (outer, rest) ← readOptions [.config, .debug, .help, .version] [] arguments
  match rest with
  | [] => throw .usage
  | "help" :: rest => throw (helpFor rest)
  | command :: rest =>
    let some options := commands.lookup command | throw .usage
    let (inner, rest) ← readOptions ([.config, .debug, .help] ++ options) [] rest
    if rest ≠ [] then throw .usage
    let some request := Request.ofOptions? command (valueOf? environment inner) | throw .usage
    return ⟨inner.value? .config <|> outer.value? .config,
      (inner.value? .debug <|> outer.value? .debug).isSome, request⟩

end SignedDirectory.CommandLine
