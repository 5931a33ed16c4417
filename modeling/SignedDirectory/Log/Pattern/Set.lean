import SignedDirectory.Log.Pattern.Escape

/-!
# Sets in brackets

`readSet` reads a set of characters from its opening to its closing bracket: members, ranges, named
sets of ASCII characters, sets within the set, and the operators `&&`, `--` and `~~` between them.
-/

namespace SignedDirectory.Pattern

def asciiNames : List String :=
  ["alnum", "alpha", "ascii", "blank", "cntrl", "digit", "graph", "lower", "print", "punct",
    "space", "upper", "word", "xdigit"]

/-- A named set after its opening bracket: whether it is negated, and what follows it. -/
def readAsciiName : List Char → Option (Bool × List Char)
  | ':' :: rest =>
    let (negated, rest) := match rest with
      | '^' :: rest => (true, rest)
      | rest => (false, rest)
    match rest.dropWhile (· ≠ ':') with
    | ':' :: ']' :: after =>
      if asciiNames.contains (String.ofList (rest.takeWhile (· ≠ ':'))) then some (negated, after)
      else none
    | _ => none
  | _ => none

/-- One end of a range, or one member of a set. -/
def readMember (mode : Mode) : List Char → Option (Atom × List Char)
  | [] => none
  | '\\' :: rest => readEscape mode rest
  | ch :: rest => some (.literal ch.toNat, rest)

def Atom.isMember (mode : Mode) : Atom → Bool
  | .literal code => mode.unicode || code < 0x80
  | .set => true
  | .assertion => false

def isRange : Atom → Atom → Bool
  | .literal a, .literal b => a ≤ b
  | _, _ => false

/-- A set that is open: its members since the last operator, and how deep what stands in front of
that operator is nested. -/
structure OpenSet where
  members : Extent := {}
  left : Option Nat := none

namespace OpenSet

/-- How deep what was read of the set is nested. -/
def closed (s : OpenSet) : Nat :=
  match s.left with
  | none => s.members.closed
  | some left => max left s.members.closed + 1

def add (s : OpenSet) (depth : Nat) : OpenSet := { s with members := s.members.add depth }

/-- The set after an operator. -/
def operate (s : OpenSet) : OpenSet := ⟨{}, some s.closed⟩

end OpenSet

/-- The hyphens at the front of a set, which are members of it. -/
def readHyphens (mode : Mode) (s : OpenSet) : (fuel : Nat) → List Char → OpenSet × List Char
  | 0, chars => (s, chars)
  | fuel + 1, chars =>
    match mode.skip chars with
    | '-' :: rest => readHyphens mode (s.add 0) fuel rest
    | rest => (s, rest)

/-- What follows an opening bracket, a sign of negation, hyphens, and a closing bracket that comes
first and so is a member. -/
def openSet (mode : Mode) (chars : List Char) : Option (OpenSet × List Char) :=
  if mode.needsCases then none
  else
    let (negated, rest) := match mode.skip chars with
      | '^' :: rest => (true, rest)
      | rest => (false, rest)
    if negated && !mode.unicode then none
    else
      match mode.skip rest with
      | ']' :: rest => some ((({} : OpenSet).add 0), rest)
      | rest => some (readHyphens mode {} rest.length rest)

/-- How deep a set is nested, and what follows its closing bracket. `s` is the innermost set that is
open, `around` holds those around it. Every step takes a character. -/
def readMembers (mode : Mode) :
    (fuel : Nat) → (s : OpenSet) → (around : List OpenSet) → List Char → Option (Nat × List Char)
  | 0, _, _, _ => none
  | fuel + 1, s, around, chars =>
    match mode.skip chars with
    | [] => none
    | '[' :: rest =>
      match readAsciiName rest with
      | some (negated, after) =>
        if negated && !mode.unicode then none else readMembers mode fuel (s.add 0) around after
      | none => do
        let (inner, rest) ← openSet mode rest
        readMembers mode fuel inner (s :: around) rest
    | ']' :: rest =>
      match around with
      | [] => some (s.closed + 1, rest)
      | outer :: around => readMembers mode fuel (outer.add (s.closed + 1)) around rest
    | '&' :: '&' :: rest => readMembers mode fuel s.operate around rest
    | '-' :: '-' :: rest => readMembers mode fuel s.operate around rest
    | '~' :: '~' :: rest => readMembers mode fuel s.operate around rest
    | chars => do
      let (first, rest) ← readMember mode chars
      if !first.isMember mode then none
      match mode.skip rest with
      | '-' :: rest =>
        if mode.peek? rest = some ']' ∨ mode.peek? rest = some '-' then
          readMembers mode fuel (s.add 0) around ('-' :: rest)
        else do
          let (last, rest) ← readMember mode (mode.skip rest)
          if last.isMember mode && isRange first last then
            readMembers mode fuel (s.add 0) around rest
          else none
      | rest => readMembers mode fuel (s.add 0) around rest

/-- How deep a set is nested, and what follows it, after its opening bracket. -/
def readSet (mode : Mode) (chars : List Char) : Option (Nat × List Char) := do
  let (s, rest) ← openSet mode chars
  readMembers mode (rest.length + 1) s [] rest

end SignedDirectory.Pattern
