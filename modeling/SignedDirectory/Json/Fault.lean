import SignedDirectory.AuditPath
import SignedDirectory.Token.Error

/-!
# Faults of JSON texts

Why a JSON text does not give a value of the type that was asked for.
-/

namespace SignedDirectory.Json

/-- Why a JSON text gives no value of a type. -/
inductive Fault where
  /-- The text is not JSON, or goes on after the value. -/
  | malformed
  | missingField (name : String)
  | duplicateField (name : String)
  /-- Another kind of JSON value was due. -/
  | invalidType
  /-- A number of the right kind is out of range. -/
  | invalidValue
  /-- An array that stands for a structure has too few elements. -/
  | invalidLength
  /-- A string is no token of the kind that was due. -/
  | format (e : FormatError)
  /-- A sibling has a level that no path has. -/
  | path (e : PathError)
  deriving DecidableEq

/-- The text of a fault; what is wrong with a malformed text is left open. -/
def Fault.message? : Fault → Option String
  | .malformed => none
  | .missingField name => some ("missing field \x60" ++ name ++ "\x60")
  | .duplicateField name => some ("duplicate field \x60" ++ name ++ "\x60")
  | .invalidType => some "invalid type"
  | .invalidValue => some "invalid value"
  | .invalidLength => some "invalid length"
  | .format e => some e.message
  | .path e => some e.message

end SignedDirectory.Json
