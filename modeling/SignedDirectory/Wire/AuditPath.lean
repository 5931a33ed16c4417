import SignedDirectory.AuditPath
import SignedDirectory.Json.Decode

/-!
# Audit paths in JSON

Siblings are written as an object from levels, in decimal, to the tokens of the digests there. They
are also read from an array with one token or null for every level, and from null.
-/

namespace SignedDirectory

open Json

namespace Siblings

/-- Takes in one pair of an object: the token is read before the level. Several names may stand for
one level; the last of them counts. -/
def addMember (s : Siblings) (name : String) (v : Source) : Except Fault Siblings := do
  let digest ← v.asOptional Source.asToken
  match Decimal.toNatBelow? UInt64.size name with
  | none => throw (.path (.invalidDepth name))
  | some depth => (s.set depth (digest.getD .empty)).mapError .path

def addMembers (s : Siblings) : List (Label × Source) → Except Fault Siblings
  | [] => .ok s
  | (.name name, v) :: rest => do (← s.addMember name v).addMembers rest
  | _ => .error .malformed

/-- Takes in the elements of an array from some level on; null leaves its level as it is. -/
def addElements (s : Siblings) (depth : Nat) : List Source → Except Fault Siblings
  | [] => .ok s
  | v :: rest => do
    match ← v.asOptional Source.asToken with
    | none => s.addElements (depth + 1) rest
    | some digest => ((← (s.set depth digest).mapError .path)).addElements (depth + 1) rest

/-- Siblings from an object, an array or null. -/
def ofJson : Decoder Siblings
  | .null => .ok ∅
  | .object members => addMembers ∅ members
  | .array elements => addElements ∅ 0 elements
  | v => .error v.mismatch

instance : Form Siblings where
  toJson s := .object (s.toList.map fun (depth, digest) => (toString depth, toJson digest))
  ofJson := Siblings.ofJson

end Siblings

def AuditPath.fields : Fields AuditPath :=
  ((Fields.required "LeafKey" Source.asToken).both
    (Fields.optional "Hashes" Siblings.ofJson ∅)).map
  fun (leafKey, siblings) => ⟨leafKey, siblings⟩

instance : Form AuditPath where
  toJson path := .object [("LeafKey", toJson path.leafKey), ("Hashes", toJson path.siblings)]
  ofJson := AuditPath.fields.decode

end SignedDirectory
