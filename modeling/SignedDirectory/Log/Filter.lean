import SignedDirectory.Log.Event

/-!
# Which events are shown

A filter is a list of directives. A directive names a source and the least important level that is
shown of it; it may also name a field, and then concerns only events that have it. For an event the
directive counts whose source is the longest one that the event's source begins with; for one source
a directive with a field counts before one without, and of two alike the later one counts.
-/

namespace SignedDirectory

/-- How much is shown of the sources that begin with `source`. -/
structure Directive where
  source : String
  field : Option String
  /-- The least important level that is shown; without one, nothing is shown. -/
  least : Option Level
  deriving DecidableEq

/-- The names of the fields of every event: it has its message and nothing else. -/
def Event.fields : List String := ["message"]

namespace Directive

def concerns (d : Directive) (event : Event) : Bool :=
  d.source.toList.isPrefixOf event.source.toList && d.field.all (Event.fields.contains ·)

/-- How closely a directive describes the events that it concerns: first by its source, then by its
field. -/
def closeness (d : Directive) : Nat := 2 * d.source.length + d.field.isSome.toNat

end Directive

structure Filter where
  directives : List Directive
  deriving DecidableEq

namespace Filter

def directiveFor? (filter : Filter) (event : Event) : Option Directive :=
  (filter.directives.filter (·.concerns event)).foldl (fun best? d =>
    if best?.all (·.closeness ≤ d.closeness) then some d else best?) none

def admits (filter : Filter) (event : Event) : Bool :=
  match filter.directiveFor? event with
  | some ⟨_, _, some least⟩ => event.level.rank ≤ least.rank
  | _ => false

/-- Shows all that the library itself reports, down to a level. -/
def ofLevel (level : Level) : Filter :=
  ⟨[⟨"keytree_cli", none, some level⟩, ⟨"keytree_verifier", none, some level⟩]⟩

def errorsOnly : Filter := ⟨[⟨"", none, some .error⟩]⟩

end Filter

end SignedDirectory
