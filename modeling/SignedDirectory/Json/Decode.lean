import SignedDirectory.Json.Fault
import SignedDirectory.Json.Source
import SignedDirectory.Json.Value
import SignedDirectory.Key
import SignedDirectory.SortedMap

/-!
# Typed values from JSON

A `Decoder` takes a `Source` to a typed value. `Fields` describes a structure field by field and
gives its decoder, `Fields.decode`: a structure is an object with these members, in any order and
among members of other names, or an array of the values of its fields in their order. Faults are
found in the order of the text, and a member that is missing at the end of its object.
-/

namespace SignedDirectory.Json

/-- A way to take a value of a type from JSON. -/
abbrev Decoder (α : Type) := Source → Except Fault α

namespace Source

/-- The fault of a value that is of another kind than was due. Arrays and objects are known by their
first character; of anything else the text is read to its end. -/
def mismatch : Source → Fault
  | .broken => .malformed
  | .unreadable => .malformed
  | _ => .invalidType

def asText : Decoder String
  | .string s => .ok s
  | v => .error v.mismatch

def asFlag : Decoder Bool
  | .bool b => .ok b
  | v => .error v.mismatch

def asUInt64 : Decoder UInt64
  | .natural n => .ok n
  | .negative => .error .invalidValue
  | v => .error v.mismatch

/-- A string that stands for a value by its token. -/
def asToken {α : Type} [TokenForm α] (v : Source) : Except Fault α := do
  (TokenForm.ofToken (← v.asText)).mapError .format

def asOptional {α : Type} (decode : Decoder α) : Decoder (Option α)
  | .null => .ok none
  | v => some <$> decode v

/-- The bindings of an object whose names may be anything. -/
def asBindings {α : Type} (decode : Decoder α) :
    List (Label × Source) → Except Fault (List (String × α))
  | [] => .ok []
  | (.name name, v) :: rest => do
    let a ← decode v
    let bindings ← asBindings decode rest
    return (name, a) :: bindings
  | _ => .error .malformed

/-- A map from names: of several members of one name the last one counts, and null is the map
without bindings. -/
def asMap {α : Type} (decode : Decoder α) : Decoder (SortedMap String α)
  | .null => .ok ∅
  | .object members => SortedMap.ofList <$> asBindings decode members
  | v => .error v.mismatch

end Source

/-- The fields of a structure, as they stand in JSON. -/
structure Fields (α : Type) where
  /-- What is known of the fields inside an object. -/
  Partial : Type
  start : Partial
  /-- Takes in a member, if it is one of the fields. -/
  member : String → Source → Partial → Option (Except Fault Partial)
  /-- All fields at the end of an object. -/
  complete : Partial → Except Fault α
  /-- All fields from the elements of an array, and the elements left over. -/
  positional : List Source → Except Fault (α × List Source)

namespace Fields

/-- One field; `absent` is what stands for it where it is missing. -/
def field {α : Type} (name : String) (decode : Decoder α) (absent : Option α) : Fields α where
  Partial := Option α
  start := none
  member name' v known :=
    if name' ≠ name then none
    else if known.isSome then some (.error (.duplicateField name))
    else some (some <$> decode v)
  complete known :=
    match known <|> absent with
    | some a => .ok a
    | none => .error (.missingField name)
  positional
    | v :: rest => do return (← decode v, rest)
    | [] =>
      match absent with
      | some a => .ok (a, [])
      | none => .error .invalidLength

def required {α : Type} (name : String) (decode : Decoder α) : Fields α := field name decode none

/-- A field with a value for when it is missing. -/
def optional {α : Type} (name : String) (decode : Decoder α) (absent : α) : Fields α :=
  field name decode (some absent)

/-- The fields of both, those of the first one before those of the second one. -/
def both {α β : Type} (f : Fields α) (g : Fields β) : Fields (α × β) where
  Partial := f.Partial × g.Partial
  start := (f.start, g.start)
  member name v known :=
    match f.member name v known.1 with
    | some result => some ((·, known.2) <$> result)
    | none => (g.member name v known.2).map fun result => (known.1, ·) <$> result
  complete known := do
    let a ← f.complete known.1
    let b ← g.complete known.2
    return (a, b)
  positional elements := do
    let (a, elements) ← f.positional elements
    let (b, elements) ← g.positional elements
    return ((a, b), elements)

def map {α β : Type} (make : α → β) (f : Fields α) : Fields β where
  Partial := f.Partial
  start := f.start
  member := f.member
  complete known := make <$> f.complete known
  positional elements := (fun (a, rest) => (make a, rest)) <$> f.positional elements

/-- Takes in the members of an object in their order. A member of another name is passed over if it
is JSON. -/
def members {α : Type} (f : Fields α) : List (Label × Source) → f.Partial → Except Fault f.Partial
  | [], known => .ok known
  | (.name name, v) :: rest, known =>
    match f.member name v known with
    | some result => do f.members rest (← result)
    | none => if v.isWhole then f.members rest known else .error .malformed
  | _, _ => .error .malformed

def decode {α : Type} (f : Fields α) : Decoder α
  | .object members => do f.complete (← f.members members f.start)
  | .array elements => do
    match ← f.positional elements with
    | (a, []) => return a
    | _ => throw .malformed
  | v => .error v.mismatch

end Fields

/-- The value of a JSON text. What follows it is looked at last. -/
def Document.decode {α : Type} (decode : Decoder α) (document : Document) : Except Fault α := do
  let a ← decode document.source
  if document.ended then return a else throw .malformed

class Form (α : Type) where
  toJson : α → Value
  ofJson : Decoder α

export Form (toJson)

def ofString (α : Type) [Form α] (text : String) : Except Fault α :=
  (Document.ofString text).decode Form.ofJson

def ofBytes (α : Type) [Form α] (bytes : Bytes) : Except Fault α :=
  (Document.ofBytes bytes).decode Form.ofJson

instance {α : Type} [Form α] : Form (Option α) where
  toJson
    | none => .null
    | some a => toJson a
  ofJson := Source.asOptional Form.ofJson

/-- A map is written as an object with its keys in ascending order. -/
instance {α : Type} [Form α] : Form (SortedMap String α) where
  toJson m := .object (m.toList.map fun (name, a) => (name, toJson a))
  ofJson := Source.asMap Form.ofJson

instance : Form String := ⟨.string, Source.asText⟩

instance : Form Bool := ⟨.bool, Source.asFlag⟩

instance : Form UInt64 := ⟨fun n => .number n.toNat, Source.asUInt64⟩

/-- A value with a token is written as its token. -/
instance {α : Type} [TokenForm α] : Form α := ⟨fun a => .string (toToken a), Source.asToken⟩

end SignedDirectory.Json
