import Eligibility.Condition
import Std.Data.ExtTreeMap

/-!
# Attribute records

A record gives attributes their values. A field may also be entered as absent:
then it counts as an entry and has no value. Of several entries for one field
the last one holds, and nothing else about their order is kept, so two records
with the same entries are equal.
-/

namespace Eligibility

/-- The attributes known about somebody; `none` enters a field as absent. -/
structure Record where
  entries : Std.ExtTreeMap String (Option Value)

namespace Record

/-- A record without entries. -/
def empty : Record := ⟨∅⟩

instance : Inhabited Record := ⟨empty⟩

/-- Enters a value for a field, or its absence. -/
def enter (record : Record) (field : String) (value : Option Value) : Record :=
  ⟨record.entries.insert field value⟩

/-- Enters a value for a field. -/
def insert (record : Record) (field : String) (value : Value) : Record :=
  record.enter field (some value)

/-- Enters a field as absent. -/
def insertAbsent (record : Record) (field : String) : Record :=
  record.enter field none

/-- The record of a list of entries. -/
def ofList (entries : List (String × Option Value)) : Record :=
  entries.foldl (fun record entry => record.enter entry.1 entry.2) empty

/-- The value of a field, if the record has one. -/
def get? (record : Record) (field : String) : Option Value :=
  (record.entries[field]?).join

/-- The number of fields with an entry. -/
def size (record : Record) : Nat :=
  record.entries.size

def isEmpty (record : Record) : Bool :=
  record.entries.isEmpty

/-- The entries in the order of their fields. -/
def toList (record : Record) : List (String × Option Value) :=
  record.entries.toList

@[simp] theorem get?_empty (field : String) : empty.get? field = none := by
  simp [get?, empty]

theorem get?_enter (record : Record) (field field' : String) (value : Option Value) :
    (record.enter field value).get? field' =
      if field = field' then value else record.get? field' := by
  simp only [get?, enter, Std.ExtTreeMap.getElem?_insert, Std.LawfulEqCmp.compare_eq_iff_eq]
  split <;> rfl

end Record

end Eligibility
