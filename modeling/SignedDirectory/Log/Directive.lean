import SignedDirectory.Decimal
import SignedDirectory.Log.Filter
import SignedDirectory.Log.Pattern

/-!
# Filters as texts

A filter is written as its directives with commas between them: `warn`, `3`,
`keytree_verifier=debug`, `keytree_cli[{message}]=info`. The part in brackets names a span, a field
in braces, or both; since there are no spans, a directive that names one, or asks for the value of
a field, is read and then left out.

The reader goes through a directive without the white space at its ends, and the byte positions that
it finds there cut the directive with that white space. So white space in front moves all parts but
the first one, and a part may come to begin or end inside a character, which ends the reading.
-/

namespace SignedDirectory

inductive FilterFault where
  | malformed
  /-- A part of a directive would begin or end inside a character. -/
  | splitsCharacter
  deriving DecidableEq

namespace Level

/-- The level that a word or a number names, the outer `none` if it names none; `off` and zero name
the absence of a level. The case of the letters does not matter. -/
def ofWord? (word : String) : Option (Option Level) :=
  match Decimal.toNatBelow? UInt64.size word with
  | some 0 => some none
  | some n => (all.find? fun level => level.rank = n).map some
  | none =>
    if word.toLower = "off" then some none
    else (all.find? fun level => level.word = word.toLower).map some

end Level

namespace Directive

structure Draft where
  source : String := ""
  isSpan : Bool := false
  /-- A field, and whether its value is asked for. -/
  field : Option (String × Bool) := none
  /-- Without a level, everything is shown. -/
  least : Option Level := some .trace

/-- Where the reader of a directive is, with the position at which the part began. -/
inductive Place where
  | start
  /-- In a source, or in a level that stands alone. -/
  | word (first : Nat)
  | span (first : Nat)
  | field (first : Nat)
  /-- After the brace that closes a field. -/
  | afterField
  /-- After the bracket that closes a span. -/
  | afterSpan
  | level (first : Nat)

/-- The first `size` bytes of a text and the rest of it, unless they end inside a character. -/
def splitBytes? : (size : Nat) → List Char → Option (List Char × List Char)
  | 0, chars => some ([], chars)
  | _, [] => some ([], [])
  | size, ch :: rest =>
    if size < ch.utf8Size then none
    else (splitBytes? (size - ch.utf8Size) rest).map fun (front, rest) => (ch :: front, rest)
  termination_by _ chars => chars.length

/-- The part of a text from one byte position to another. -/
def part (text : List Char) (first stop : Nat) : Except FilterFault (List Char) :=
  match (splitBytes? first text).bind fun (_, rest) => splitBytes? (stop - first) rest with
  | some (front, _) => .ok front
  | none => .error .splitsCharacter

def partFrom (text : List Char) (first : Nat) : Except FilterFault (List Char) :=
  match splitBytes? first text with
  | some (_, rest) => .ok rest
  | none => .error .splitsCharacter

/-- A field, with the value that is asked for after an equals sign. A second equals sign ends the
value. -/
def readField (chars : List Char) : Except FilterFault (String × Bool) :=
  let name := String.ofList (chars.takeWhile (· ≠ '='))
  if chars = [] then .error .malformed
  else
    match chars.dropWhile (· ≠ '=') with
    | _ :: value =>
      if Pattern.isValid (value.takeWhile (· ≠ '=')) then .ok (name, true) else .error .malformed
    | [] => .ok (name, false)

/-- A level after its equals sign. Without one, everything is shown. -/
def readLevel (chars : List Char) : Except FilterFault (Option Level) :=
  if chars = [] then .ok (some .trace)
  else
    match Level.ofWord? (String.ofList chars) with
    | some least => .ok least
    | none => .error .malformed

def beginsWord (ch : Char) : Bool := "-:_".contains ch || Text.isAlphanumeric ch

def step (text : List Char) (position : Nat) (ch : Char) (draft : Draft) :
    Place → Except FilterFault (Place × Draft)
  | .start =>
    if ch = '[' then .ok (.span (position + 1), draft)
    else if beginsWord ch then .ok (.word position, draft)
    else .error .malformed
  | .word first =>
    if ch = '=' ∨ ch = '[' then do
      let draft := { draft with source := String.ofList (← part text first position) }
      return (if ch = '=' then .level (position + 1) else .span (position + 1), draft)
    else .ok (.word first, draft)
  | .span first =>
    if ch = ']' then do
      let _ ← part text first position
      return (.afterSpan, { draft with isSpan := true })
    else if ch = '\x7b' then do
      let name ← part text first position
      return (.field (position + 1), { draft with isSpan := name ≠ [] })
    else .ok (.span first, draft)
  | .field first =>
    if ch = '\x7d' then do
      let field ← readField (← part text first position)
      return (.afterField, { draft with field := some field })
    else .ok (.field first, draft)
  | .afterField => if ch = ']' then .ok (.afterSpan, draft) else .error .malformed
  | .afterSpan => if ch = '=' then .ok (.level (position + 1), draft) else .error .malformed
  | .level first => .ok (.level first, draft)

def readFrom (text : List Char) (place : Place) (position : Nat) (draft : Draft) :
    List Char → Except FilterFault (Place × Draft)
  | [] => .ok (place, draft)
  | ch :: rest => do
    let (place, draft) ← step text position ch draft place
    readFrom text place (position + ch.utf8Size) draft rest

/-- The draft at the end of a directive. A word alone is a level or, if it names none, a source. -/
def finish (text : List Char) (draft : Draft) : Place → Except FilterFault Draft
  | .word first => do
    let word := String.ofList (← partFrom text first)
    match Level.ofWord? word with
    | some least => return { draft with least }
    | none => return { draft with source := word }
  | .level first => do return { draft with least := ← readLevel (← partFrom text first) }
  | .afterSpan => .ok draft
  | _ => .error .malformed

/-- The directive of a draft, if it concerns events by what they are alone. -/
def ofDraft? (draft : Draft) : Option Directive :=
  match draft.isSpan, draft.field with
  | true, _ => none
  | _, some (_, true) => none
  | _, field => some ⟨draft.source, field.map (·.1), draft.least⟩

/-- One directive, or nothing for a directive that is left out. -/
def ofString (text : String) : Except FilterFault (Option Directive) := do
  let chars := text.toList
  let (place, draft) ← readFrom chars .start 0 {} (Text.trim chars)
  return ofDraft? (← finish chars draft place)

end Directive

namespace Filter

/-- The filter that a text describes. Empty directives are passed over; without any directive errors
are shown. -/
def ofString (text : String) : Except FilterFault Filter := do
  let directives ← ((text.splitOn ",").filter (· ≠ "")).mapM Directive.ofString
  return if directives = [] then errorsOnly else ⟨directives.filterMap id⟩

end Filter

end SignedDirectory
