import SignedDirectory.Decimal
import SignedDirectory.Log.Pattern.Set

/-!
# Patterns for the values of fields

A filter may ask for the value of a field: by a number, or by a regular expression. The events of
this library have no field to which a value could be compared, so that only one thing matters here:
`Pattern.isValid` says whether a text is a number or a regular expression at all.

Regular expressions have groups with flags and names, sets, repetition by `?`, `*` and `+`, and the
escapes of `readEscape`. There are no counted repetitions, and the nesting is limited.
-/

namespace SignedDirectory.Pattern

/-- How deep a regular expression may be nested. -/
def nestLimit : Nat := 250

def isGroupName : List Char → Bool
  | [] => false
  | ch :: rest =>
    (ch = '_' || Text.isAlphabetic ch) &&
      rest.all fun ch => Text.isAlphanumeric ch || "_.[]".contains ch

/-- The flags up to the end of a group's head: the mode they set, and what follows them. `seen`
holds those that were read; none of them may come twice, and the sign that switches flags off may
not come last. -/
def readFlags (mode : Mode) (seen : List Char) : List Char → Option (Mode × List Char)
  | [] => none
  | ch :: rest =>
    if ch = ':' ∨ ch = ')' then
      if seen.head? = some '-' then none else some (mode, ch :: rest)
    else if seen.contains ch || !"imsUuRx-".contains ch then none
    else readFlags (mode.set ch (!seen.contains '-')) (ch :: seen) rest

/-- A group that is open. -/
structure OpenGroup where
  mode : Mode := {}
  /-- What was read since the last bar. -/
  branch : Extent := {}
  /-- How deep the last thing is nested, if it may be repeated. -/
  last : Option Nat := none
  /-- How deep the branches before the last bar are nested, if there is a bar. -/
  branches : Option Nat := none

namespace OpenGroup

/-- How deep what was read of the group is nested. -/
def closed (g : OpenGroup) : Nat :=
  match g.branches with
  | none => g.branch.closed
  | some depth => max depth g.branch.closed + 1

def add (g : OpenGroup) (depth : Nat) : OpenGroup :=
  { g with branch := g.branch.add depth, last := some depth }

def withMode (g : OpenGroup) (mode : Mode) : OpenGroup :=
  { g with mode, branch := g.branch.add 0, last := none }

def bar (g : OpenGroup) : OpenGroup :=
  { g with
    branch := {}
    last := none
    branches := some (max (g.branches.getD 0) g.branch.closed) }

def repeatLast? (g : OpenGroup) : Option OpenGroup :=
  g.last.map fun depth =>
    { g with
      branch := { g.branch with depth := max g.branch.depth (depth + 1) }
      last := some (depth + 1) }

end OpenGroup

structure State where
  /-- The innermost group that is open. -/
  group : OpenGroup := {}
  /-- The groups around it, the innermost first. -/
  around : List OpenGroup := []
  names : List (List Char) := []

namespace State

def enter (s : State) (mode : Mode) : State :=
  { s with group := { mode }, around := s.group :: s.around }

/-- The state inside a group with a name. -/
def enterNamed (s : State) (chars : List Char) : Option (State × List Char) :=
  let name := chars.takeWhile (· ≠ '>')
  match chars.dropWhile (· ≠ '>') with
  | '>' :: rest =>
    if isGroupName name && !s.names.contains name then
      some ({ s.enter s.group.mode with names := name :: s.names }, rest)
    else none
  | _ => none

/-- The state after an opening parenthesis and the head of its group. Flags without a group hold up
to the end of the group around them. -/
def openGroup (s : State) : List Char → Option (State × List Char)
  | '?' :: '=' :: _ => none
  | '?' :: '!' :: _ => none
  | '?' :: '<' :: '=' :: _ => none
  | '?' :: '<' :: '!' :: _ => none
  | '?' :: 'P' :: '<' :: rest => s.enterNamed rest
  | '?' :: '<' :: rest => s.enterNamed rest
  | '?' :: ')' :: _ => none
  | '?' :: rest =>
    match readFlags s.group.mode [] rest with
    | some (mode, ':' :: rest) => some (s.enter mode, rest)
    | some (mode, ')' :: rest) => some ({ s with group := s.group.withMode mode }, rest)
    | _ => none
  | rest => some (s.enter s.group.mode, rest)

def closeGroup? (s : State) : Option State :=
  match s.around with
  | outer :: around => some { s with group := outer.add (s.group.closed + 1), around }
  | [] => none

def add (s : State) (depth : Nat) : State := { s with group := s.group.add depth }

def addAtom? (s : State) : Atom → Option State
  | .literal _ => if s.group.mode.needsCases then none else some (s.add 0)
  | _ => some (s.add 0)

end State

/-- Takes in one part of a regular expression: the state after it, and what follows it. -/
def step (s : State) : (ch : Char) → (rest : List Char) → Option (State × List Char)
  | '(', rest => s.openGroup (s.group.mode.skip rest)
  | ')', rest => s.closeGroup?.map (·, rest)
  | '|', rest => some ({ s with group := s.group.bar }, rest)
  | '[', rest => (readSet s.group.mode rest).map fun (depth, rest) => (s.add depth, rest)
  | '{', _ => none
  | '.', rest => if s.group.mode.unicode then some (s.add 0, rest) else none
  | '\\', rest => do
    let (atom, rest) ← readEscape s.group.mode rest
    return (← s.addAtom? atom, rest)
  | ch, rest =>
    if ch = '?' ∨ ch = '*' ∨ ch = '+' then do
      let group ← s.group.repeatLast?
      let rest := match rest with
        | '?' :: rest => rest
        | rest => rest
      return ({ s with group }, rest)
    else if ch = '^' ∨ ch = '$' then some (s.add 0, rest)
    else do return (← s.addAtom? (.literal ch.toNat), rest)

/-- Whether a text is the rest of a regular expression. Every step takes a character. -/
def isRest : (fuel : Nat) → State → List Char → Bool
  | 0, _, _ => false
  | fuel + 1, s, chars =>
    match s.group.mode.skip chars with
    | [] => s.around.isEmpty && s.group.closed ≤ nestLimit
    | ch :: rest =>
      match step s ch rest with
      | some (s, rest) => isRest fuel s rest
      | none => false

def isRegular (chars : List Char) : Bool := isRest (chars.length + 1) {} chars

def isExponent : List Char → Bool
  | [] => true
  | ch :: rest =>
    let digits := match rest with
      | '+' :: rest => rest
      | '-' :: rest => rest
      | rest => rest
    (ch = 'e' || ch = 'E') && !digits.isEmpty && digits.all Decimal.isDigit

/-- Whether a text is a number: digits with an optional point and exponent, or a word for infinity
or for no number. -/
def isNumber (chars : List Char) : Bool :=
  let body := match chars with
    | '+' :: rest => rest
    | '-' :: rest => rest
    | rest => rest
  let whole := body.takeWhile Decimal.isDigit
  let (fraction, rest) := match body.dropWhile Decimal.isDigit with
    | '.' :: rest => (rest.takeWhile Decimal.isDigit, rest.dropWhile Decimal.isDigit)
    | rest => ([], rest)
  ["inf", "infinity", "nan"].contains (String.ofList body).toLower ||
    (!(whole ++ fraction).isEmpty && isExponent rest)

def isValid (chars : List Char) : Bool := isNumber chars || isRegular chars

end SignedDirectory.Pattern
