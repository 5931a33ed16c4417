import SignedDirectory.Json.Decode
import SignedDirectory.Record

/-!
# Records in JSON

The JSON forms of entries and roots. The slots of an entry may be null or missing for none at all,
and an entry that does not say so is not in its recovery window.
-/

namespace SignedDirectory

open Json

variable [SignatureScheme]

def Entry.fields : Fields Entry :=
  ((Fields.required "Name" Source.asText).both
    ((Fields.optional "Keys" (Source.asMap Source.asText) ∅).both
      ((Fields.required "Timestamp" Source.asUInt64).both
        (Fields.optional "InRecovery" Source.asFlag false)))).map
  fun (name, keys, timestamp, inRecovery) => ⟨name, keys, timestamp, inRecovery⟩

instance : Form Entry where
  toJson e := .object [("Name", toJson e.name), ("Keys", toJson e.keys),
    ("Timestamp", toJson e.timestamp), ("InRecovery", toJson e.inRecovery)]
  ofJson := Entry.fields.decode

def Root.fields : Fields Root :=
  ((Fields.required "RootHash" Source.asToken).both
    (Fields.required "Timestamp" Source.asUInt64)).map
  fun (rootHash, timestamp) => ⟨rootHash, timestamp⟩

instance : Form Root where
  toJson r := .object [("RootHash", toJson r.rootHash), ("Timestamp", toJson r.timestamp)]
  ofJson := Root.fields.decode

end SignedDirectory
