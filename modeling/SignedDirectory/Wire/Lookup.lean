import SignedDirectory.Lookup
import SignedDirectory.Wire.AuditPath
import SignedDirectory.Wire.Record

/-!
# Lookups in JSON

The JSON forms of signed roots, of audit paths with their signed roots and of whole lookups. A
lookup without entry proves absence; both its members may be null or missing.
-/

namespace SignedDirectory

open Json

def SignedRoot.fields : Fields SignedRoot :=
  ((Fields.required "Root" Root.fields.decode).both
    (Fields.required "Signature" Source.asToken)).map
  fun (root, signature) => ⟨root, signature⟩

instance : Form SignedRoot where
  toJson signed :=
    .object [("Root", toJson signed.root), ("Signature", toJson signed.signature)]
  ofJson := SignedRoot.fields.decode

def SignedPath.fields : Fields SignedPath :=
  ((Fields.required "TrieLookup" AuditPath.fields.decode).both
    (Fields.required "SignedRoot" SignedRoot.fields.decode)).map
  fun (path, signedRoot) => ⟨path, signedRoot⟩

instance : Form SignedPath where
  toJson signed :=
    .object [("TrieLookup", toJson signed.path), ("SignedRoot", toJson signed.signedRoot)]
  ofJson := SignedPath.fields.decode

def Lookup.fields : Fields Lookup :=
  ((Fields.optional "Entry" (Source.asOptional Entry.fields.decode) none).both
    (Fields.optional "SignedTrieLookups" (Source.asMap SignedPath.fields.decode) ∅)).map
  fun (entry, proofs) => ⟨entry, proofs⟩

instance : Form Lookup where
  toJson lookup :=
    .object [("Entry", toJson lookup.entry), ("SignedTrieLookups", toJson lookup.proofs)]
  ofJson := Lookup.fields.decode

end SignedDirectory
