import Eligibility.Host.Conversion
import Eligibility.Text.Quoted

/-!
# Requests

A calling program hands over a rule in one of three forms (`Origin`): as text, as
several texts to combine, or on the wire. The rule obtained is then put to a use
(`Use`): it is written down, described, or records are judged by it. Arguments are
converted from left to right, and a rule is obtained before attributes are looked
at. An answer may itself be handed over in a later request, if it is a text or a
rule (`Answer.toText`, `Answer.toRule`).
-/

namespace Eligibility.Host

/-- The form in which a caller hands over a rule. -/
inductive Origin where
  | text (rule : Argument)
  | texts (rules connective : Argument)
  | wire (rule : Argument)
deriving Repr, Inhabited

/-- The rule that is handed over, with the texts left out of it. -/
def Origin.obtain (config : Config) : Origin → Except Fault Combination
  | text rule => do
    let r ← (Rule.ofText config (← rule.toText)).mapError .rule
    return ⟨r, []⟩
  | texts rules connective => do
    let texts ← rules.toTexts
    let op ← connective.toConnective config
    (Combination.ofTexts config op texts).mapError .combine
  | wire rule => do
    let r ← (Rule.ofWire config (← rule.toText)).mapError .wire
    return ⟨r, []⟩

/-- What a rule is used for. -/
inductive Use where
  /-- It is kept as it is. -/
  | keep
  | wire
  | text
  | quoted
  | conditionCount
  | rejected
  | judge (attributes : Mapping)
  | judgeAll (records : List Mapping)
deriving Repr, Inhabited

/-- The answer to a request that succeeds. -/
inductive Answer where
  | done
  | rule (c : Combination)
  | text (s : String)
  | count (n : Nat)
  | rejected (rejections : List Rejection)
  | verdict (b : Bool)
  | verdicts (bs : List Bool)
deriving DecidableEq, Repr, Inhabited

/-- An answer as a text argument of a later request. -/
def Answer.toText : Answer → Except Fault String
  | text s => .ok s
  | _ => .error .wrongType

/-- An answer as the rule that a later request is about. -/
def Answer.toRule : Answer → Except Fault Combination
  | rule c => .ok c
  | _ => .error .wrongType

/-- The verdict of a rule on a record. -/
def judge (r : Rule) (record : Record) : Except Fault Bool :=
  (r.evaluate record).mapError .evaluation

/-- The verdicts of a rule on the records of several mappings. All of them are
converted before any is judged. -/
def judgeAll (r : Rule) (mappings : List Mapping) : Except Fault (List Bool) := do
  let records ← mappings.mapM Mapping.toRecord
  records.mapM (judge r)

/-- What comes of putting a rule to a use. -/
def Use.answer (c : Combination) : Use → Except Fault Answer
  | keep => .ok (.rule c)
  | wire => .ok (.text c.rule.toWire)
  | text => .ok (.text c.rule.text)
  | quoted => .ok (.text ("CompiledRule(" ++ Eligibility.quoted c.rule.text ++ ")"))
  | conditionCount => .ok (.count c.rule.leaves.length)
  | rejected => .ok (.rejected c.rejected)
  | judge attributes => do
    let record ← attributes.toRecord
    return .verdict (← Host.judge c.rule record)
  | judgeAll records => return .verdicts (← Host.judgeAll c.rule records)

end Eligibility.Host
