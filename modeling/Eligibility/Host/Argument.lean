/-!
# Arguments

A calling program is dynamically typed: it hands over values of which the library
accepts only some. A mapping keeps its keys in the order in which they were first
entered, each with the value entered last. Keys that are no texts are all alike
to the library; they are kept as `none`.
-/

namespace Eligibility.Host

/-- A value handed over by a calling program. -/
inductive Argument where
  | nothing
  | flag (b : Bool)
  | integer (n : Int)
  /-- A number with a fractional part, even if that is zero. -/
  | real
  | text (s : String)
  | list (items : List Argument)
  | mapping
deriving Repr, Inhabited

/-- A mapping, its keys in the order of their first entry. -/
abbrev Mapping := List (Option String × Argument)

namespace Mapping

/-- Enters a value: in the place of the value that the key has, or at the end. -/
def put (mapping : Mapping) (key : Option String) (value : Argument) : Mapping :=
  match mapping with
  | [] => [(key, value)]
  | (key', value') :: rest =>
    if key' = key then (key, value) :: rest else (key', value') :: put rest key value

/-- The mapping that entering the pairs one after the other gives. -/
def ofPairs (pairs : List (Option String × Argument)) : Mapping :=
  pairs.foldl (fun mapping pair => mapping.put pair.1 pair.2) []

/-- The value of a key. -/
def get? (mapping : Mapping) (key : String) : Option Argument :=
  (mapping.find? (·.1 = some key)).map (·.2)

end Mapping

end Eligibility.Host
