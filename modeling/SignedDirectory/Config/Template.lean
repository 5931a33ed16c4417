/-!
# Placeholders in a configuration

A configuration may hold placeholders `${NAME}` for environment variables. `Template.ofString` finds
them in the text alone: a scanner follows quotes, backslashes and comments, and leaves alone what
stands in a comment or after a backslash. `Template.fill` puts the values of an environment in their
places; a value is never scanned again. Positions are byte offsets.
-/

namespace SignedDirectory.Config

inductive Piece where
  | char (ch : Char)
  | placeholder (name : String) (position : Nat)
  /-- A placeholder that the text ends in. -/
  | unclosed (position : Nat)
  /-- A placeholder without a name. -/
  | nameless (position : Nat)
  deriving DecidableEq

inductive Mode where
  | outside
  /-- Inside a string that this quote opened. -/
  | quoted (quote : Char)
  /-- After a backslash in a string between double quotes. -/
  | escaped
  | comment
  deriving DecidableEq

namespace Mode

/-- Where the scanner is after one more character. -/
def next (ch : Char) : Mode → Mode
  | .outside =>
    if ch = '"' ∨ ch = '\'' then .quoted ch
    else if ch = '#' then .comment
    else .outside
  | .quoted quote =>
    if ch = '\\' ∧ quote = '"' then .escaped
    else if ch = quote then .outside
    else .quoted quote
  | .escaped => .quoted '"'
  | .comment => if ch = '\n' then .outside else .comment

/-- Whether a placeholder may begin here. -/
def isLive : Mode → Bool
  | .outside => true
  | .quoted _ => true
  | _ => false

end Mode

inductive Scanner where
  | text (mode : Mode)
  /-- Between the dollar sign and the brace of a placeholder. -/
  | opening (mode : Mode) (start : Nat)
  /-- Inside a placeholder; `name` is what was read of its name, the last character first. -/
  | naming (mode : Mode) (start : Nat) (name : List Char)

/-- The pieces of the rest of a text. A placeholder that is not closed or has no name is the last
piece. -/
def scan : Scanner → (position : Nat) → List Char → List Piece
  | .naming _ start _, _, [] => [.unclosed start]
  | _, _, [] => []
  | .text mode, position, ch :: rest =>
    if ch = '$' ∧ mode.isLive ∧ rest.head? = some '\x7b' then
      scan (.opening mode position) (position + 1) rest
    else .char ch :: scan (.text (mode.next ch)) (position + ch.utf8Size) rest
  | .opening mode start, position, _ :: rest => scan (.naming mode start []) (position + 1) rest
  | .naming mode start name, position, ch :: rest =>
    if ch = '\x7d' then
      if name = [] then [.nameless start]
      else .placeholder (String.ofList name.reverse) start :: scan (.text mode) (position + 1) rest
    else scan (.naming mode start (ch :: name)) (position + ch.utf8Size) rest

inductive TemplateError where
  | unset (name : String) (position : Nat)
  | unclosed (position : Nat)
  | nameless (position : Nat)
  deriving DecidableEq

def TemplateError.message : TemplateError → String
  | .unset name position =>
    s!"Environment variable '{name}' is not set (referenced at position {position})"
  | .unclosed position =>
    s!"Unclosed environment variable placeholder at position {position}"
  | .nameless position => s!"Empty environment variable name at position {position}"

abbrev Environment := String → Option String

structure Template where
  pieces : List Piece
  deriving DecidableEq

namespace Template

def ofString (text : String) : Template := ⟨scan (.text .outside) 0 text.toList⟩

def fillPiece (environment : Environment) : Piece → Except TemplateError (List Char)
  | .char ch => .ok [ch]
  | .placeholder name position =>
    match environment name with
    | some value => .ok value.toList
    | none => .error (.unset name position)
  | .unclosed position => .error (.unclosed position)
  | .nameless position => .error (.nameless position)

def fill (environment : Environment) (template : Template) : Except TemplateError String := do
  let parts ← template.pieces.mapM (fillPiece environment)
  return String.ofList parts.flatten

end Template

end SignedDirectory.Config
