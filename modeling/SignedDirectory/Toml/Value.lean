/-!
# TOML values and how tables grow

`Value` is a value of a TOML document. A document is a list of statements, and its root table grows
with every one of them: `Table.assign` adds a value under a dotted key, `Table.define` and
`Table.append` make room for what follows a header. A table remembers how it came about, because
that decides whether a later statement may still add to it.
-/

namespace SignedDirectory.Toml

inductive Origin where
  /-- Written in one place, between braces or as the root; nothing may add to it from elsewhere. -/
  | inline
  /-- Named by a header of its own. -/
  | header
  /-- Named only inside longer headers. -/
  | implicit
  /-- Named only inside dotted keys. -/
  | dotted
  deriving DecidableEq

/-- A TOML value. Of numbers only integers keep their value, and of dates and times nothing is
kept. -/
inductive Value where
  | string (s : String)
  | integer (n : Int)
  | real
  | bool (b : Bool)
  | moment
  | array (elements : List Value)
  | table (origin : Origin) (members : List (String × Value))
  /-- Tables under one repeated header, the last of them apart: it is the one that grows. -/
  | tables (earlier : List (List (String × Value))) (last : List (String × Value))
  deriving Inhabited

abbrev Table := List (String × Value)

/-- A dotted key: the names of the tables on the way, and the last name. -/
structure Key where
  path : List String
  name : String
  deriving DecidableEq

namespace Table

def find? (name : String) : Table → Option Value
  | [] => none
  | (name', v) :: rest => if name' = name then some v else find? name rest

def replace (name : String) (v : Value) (members : Table) : Table :=
  members.map fun m => if m.1 = name then (name, v) else m

/-- Changes the table at the end of a path by `f`, which is told the origin of that table. Tables
that are missing on the way are made. A dotted key goes only through tables that no header has
named; nothing goes through an inline table or any other value. -/
def descend (isDotted : Bool) (f : Origin → Table → Option Table) :
    (path : List String) → Origin → Table → Option Table
  | [], origin, members => f origin members
  | name :: path, _, members =>
    match members.find? name with
    | none => do
      let origin := if isDotted then Origin.dotted else .implicit
      let child ← descend isDotted f path origin []
      return members ++ [(name, .table origin child)]
    | some (.table origin child) =>
      if origin = .inline ∨ (isDotted ∧ origin = .header) then none
      else do
        let child ← descend isDotted f path origin child
        return members.replace name (.table origin child)
    | some (.tables earlier last) => do
      let last ← descend isDotted f path .header last
      return members.replace name (.tables earlier last)
    | some _ => none

/-- Adds a member to a table that dotted keys have reached, or that was reached without any. A name
is used only once. -/
def add (isReachedByDots : Bool) (name : String) (v : Value) (origin : Origin) (members : Table) :
    Option Table :=
  if decide (origin = .dotted) != isReachedByDots || (members.find? name).isSome then none
  else some (members ++ [(name, v)])

def assign (key : Key) (v : Value) (origin : Origin) (members : Table) : Option Table :=
  descend true (add (!key.path.isEmpty) key.name v) key.path origin members

/-- Makes a table under a header. If longer headers have named it already, it is there. -/
def define (key : Key) (root : Table) : Option Table :=
  descend false (fun _ members =>
    match members.find? key.name with
    | none => some (members ++ [(key.name, .table .header [])])
    | some (.table .implicit child) => some (members.replace key.name (.table .header child))
    | some _ => none) key.path .inline root

def append (key : Key) (root : Table) : Option Table :=
  descend false (fun _ members =>
    match members.find? key.name with
    | none => some (members ++ [(key.name, .tables [] [])])
    | some (.tables earlier last) =>
      some (members.replace key.name (.tables (earlier ++ [last]) []))
    | some _ => none) key.path .inline root

def ofAssignments (assignments : List (Key × Value)) : Option Table :=
  assignments.foldlM (fun members (key, v) => members.assign key v .inline) []

end Table

inductive Statement where
  | table (key : Key)
  | element (key : Key)
  | assign (key : Key) (v : Value)

namespace Statement

/-- The root table while the statements of a document come in, and the table to which assignments
add. -/
structure Growth where
  root : Table
  /-- The names on the way to the table under the last header. -/
  here : List String

def grow (growth : Growth) : Statement → Option Growth
  | .table key => do return ⟨← growth.root.define key, key.path ++ [key.name]⟩
  | .element key => do return ⟨← growth.root.append key, key.path ++ [key.name]⟩
  | .assign key v => do
    let root ← Table.descend false (Table.assign key v) growth.here .inline growth.root
    return { growth with root }

end Statement

def Table.ofStatements (statements : List Statement) : Option Table :=
  (statements.foldlM Statement.grow ⟨[], []⟩).map (·.root)

end SignedDirectory.Toml
