import Eligibility.Json

/-!
# Nesting of a JSON text

How deep the containers of a text nest, found by looking at brackets and quotes
alone, so that it is defined of every text, whether it is JSON or not. A closing
bracket with nothing to close is passed over, and so is everything between
quotes.
-/

namespace Eligibility.Json

/-- Where a scan is in relation to strings. -/
inductive ScanPhase where
  | outside
  | inside
  /-- Inside, after a backslash. -/
  | escape
deriving DecidableEq, Repr, Inhabited

/-- A scan in the middle of a text: the containers open now, and the most that
have been open at a time. -/
structure Scan where
  phase : ScanPhase := .outside
  depth : Nat := 0
  deepest : Nat := 0
deriving DecidableEq, Repr, Inhabited

/-- Passes over one character. -/
def Scan.step (scan : Scan) (c : Char) : Scan :=
  match scan.phase with
  | .escape => { scan with phase := .inside }
  | .inside =>
    if c = '\\' then { scan with phase := .escape }
    else if c = '"' then { scan with phase := .outside }
    else scan
  | .outside =>
    if c = '"' then { scan with phase := .inside }
    else if c = '{' ∨ c = '[' then
      { scan with depth := scan.depth + 1, deepest := max scan.deepest (scan.depth + 1) }
    else if c = '}' ∨ c = ']' then { scan with depth := scan.depth - 1 }
    else scan

/-- The deepest nesting of containers in a text. -/
def nesting (text : String) : Nat :=
  (text.toList.foldl Scan.step {}).deepest

mutual

/-- The deepest nesting of containers in a value. -/
def depth : Json → Nat
  | array items => depthOfItems items + 1
  | object members => depthOfMembers members + 1
  | _ => 0

def depthOfItems : List Json → Nat
  | [] => 0
  | item :: items => max item.depth (depthOfItems items)

def depthOfMembers : List (Option String × Json) → Nat
  | [] => 0
  | (_, value) :: members => max value.depth (depthOfMembers members)

end

end Eligibility.Json
