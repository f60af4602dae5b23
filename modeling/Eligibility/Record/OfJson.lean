import Eligibility.Json.Reader
import Eligibility.Record
import Eligibility.Value.OfJson

/-!
# Attribute records from JSON

A record is written as a JSON object whose members are integers of 64 bits,
strings, or null for a field that is absent.
-/

namespace Eligibility.Record

/-- What the member of a field says. -/
def entryOfJson? : Json → Option (Option Value)
  | .null => some none
  | j => (Value.ofJson? j).map some

/-- The entries that the members of an object make. -/
def entriesOfMembers? : List (Option String × Json) → Option (List (String × Option Value))
  | [] => some []
  | (name, value) :: members => do
    return (← name, ← entryOfJson? value) :: (← entriesOfMembers? members)

/-- The record that a JSON value stands for. -/
def ofJson? : Json → Option Record
  | .object members => (entriesOfMembers? members).map ofList
  | _ => none

/-- The record that a JSON text denotes. -/
def read? (text : String) : Option Record :=
  (Json.read text).bind ofJson?

end Eligibility.Record
