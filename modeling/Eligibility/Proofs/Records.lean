import Eligibility.Proofs.Batches
import Eligibility.Proofs.Json.Grammar
import Eligibility.Record.OfJson
import Mathlib.Data.Finset.Card

/-!
# Ways to a record

The same entries may be given as the members of a JSON object, as the pairs of a mapping, or
entered one after the other. A field may have several of them. A mapping keeps the place of the
first one and takes the value of the last one, and an object keeps them all; still the record is
the same in each case, and for every field the last entry holds (`Record.last_entry_holds`).
-/

namespace Eligibility

/-- The value is what the last entry for the field says. -/
def LastEntry (entries : List (String × Option Value)) (field : String)
    (value : Option Value) : Prop :=
  ∃ before later, entries = before ++ (field, value) :: later ∧ ∀ entry ∈ later, entry.1 ≠ field

section LastEntry

variable {entries : List (String × Option Value)} {field field' : String}
  {value value' : Option Value}

theorem not_lastEntry_nil : ¬LastEntry [] field value := by
  rintro ⟨before, later, h, -⟩
  simp at h

theorem lastEntry_append_self :
    LastEntry (entries ++ [(field, value)]) field value' ↔ value = value' := by
  constructor
  · rintro ⟨before, later, h, last⟩
    rcases List.eq_nil_or_concat later with rfl | ⟨later, entry, rfl⟩
    · simpa using (List.append_inj' h rfl).2
    · have same : (field, value) = entry := by
        have h : entries ++ [(field, value)] = (before ++ (field, value') :: later) ++ [entry] := by
          simpa using h
        simpa using (List.append_inj' h rfl).2
      exact absurd (congrArg Prod.fst same.symm) (last entry (by simp))
  · rintro rfl
    exact ⟨entries, [], rfl, List.forall_mem_nil _⟩

theorem lastEntry_append_of_ne (ne : field' ≠ field) :
    LastEntry (entries ++ [(field', value')]) field value ↔ LastEntry entries field value := by
  constructor
  · rintro ⟨before, later, h, last⟩
    rcases List.eq_nil_or_concat later with rfl | ⟨later, entry, rfl⟩
    · exact absurd (congrArg Prod.fst (List.head_eq_of_cons_eq (List.append_inj' h rfl).2)) ne
    · have h : entries ++ [(field', value')] = (before ++ (field, value) :: later) ++ [entry] := by
        simpa using h
      exact ⟨before, later, (List.append_inj' h rfl).1, fun e he => last e (by simp [he])⟩
  · rintro ⟨before, later, rfl, last⟩
    exact ⟨before, later ++ [(field', value')], by simp,
      List.forall_mem_append.2 ⟨last, List.forall_mem_singleton.2 ne⟩⟩

end LastEntry

namespace Record

/-! ## Entries one after the other -/

/-- Enters what an entry says. -/
def perform (record : Record) : String × Option Value → Record
  | (field, some value) => record.insert field value
  | (field, none) => record.insertAbsent field

theorem perform_eq (record : Record) (entry : String × Option Value) :
    record.perform entry = record.enter entry.1 entry.2 := by
  obtain ⟨field, value⟩ := entry
  cases value <;> rfl

theorem foldl_perform (entries : List (String × Option Value)) :
    entries.foldl perform empty = ofList entries := by
  simp only [ofList, ← perform_eq]

section OfList

variable {entries : List (String × Option Value)} {field : String} {value : Option Value}

theorem ofList_append_singleton (entries : List (String × Option Value))
    (entry : String × Option Value) :
    ofList (entries ++ [entry]) = (ofList entries).enter entry.1 entry.2 := by
  simp [ofList]

theorem getElem?_ofList :
    (ofList entries).entries[field]? = some value ↔ LastEntry entries field value := by
  induction entries using List.reverseRecOn with
  | nil => simp [ofList, empty, not_lastEntry_nil]
  | append_singleton entries entry ih =>
      obtain ⟨field', value'⟩ := entry
      rw [ofList_append_singleton, enter, Std.ExtTreeMap.getElem?_insert]
      by_cases same : field' = field
      · subst same
        simp [lastEntry_append_self]
      · rw [if_neg (by simpa using same), lastEntry_append_of_ne same, ih]

theorem contains_ofList :
    (ofList entries).entries.contains field = true ↔ field ∈ entries.map Prod.fst := by
  induction entries using List.reverseRecOn with
  | nil => simp [ofList, empty]
  | append_singleton entries entry ih =>
      rw [ofList_append_singleton, enter, Std.ExtTreeMap.contains_insert, Bool.or_eq_true, ih,
        beq_iff_eq, Std.LawfulEqCmp.compare_eq_iff_eq, or_comm, eq_comm, List.map_append,
        List.mem_append, List.map_singleton, List.mem_singleton]

theorem size_ofList : (ofList entries).size = (entries.map Prod.fst).toFinset.card := by
  induction entries using List.reverseRecOn with
  | nil => rfl
  | append_singleton entries entry ih =>
      have fields : ((entries ++ [entry]).map Prod.fst).toFinset =
          Insert.insert entry.1 (entries.map Prod.fst).toFinset := by
        ext field
        simp
      rw [ofList_append_singleton, enter, size, Std.ExtTreeMap.size_insert, fields,
        Finset.card_insert_eq_ite, ← ih]
      simp only [contains_ofList, List.mem_toFinset]
      rfl

theorem get?_ofList_eq_some_iff {v : Value} :
    (ofList entries).get? field = some v ↔ LastEntry entries field (some v) := by
  rw [get?, Option.join_eq_some_iff, getElem?_ofList]

theorem get?_ofList_eq_none_iff :
    (ofList entries).get? field = none ↔
      LastEntry entries field none ∨ ∀ entry ∈ entries, entry.1 ≠ field := by
  have unwritten : (ofList entries).entries[field]? = none ↔
      ∀ entry ∈ entries, entry.1 ≠ field := by
    rw [← Option.not_isSome_iff_eq_none, Std.ExtTreeMap.isSome_getElem?_eq_contains,
      contains_ofList]
    simp only [List.mem_map, not_exists, not_and, ne_eq]
  rw [get?, Option.join_eq_none_iff, unwritten, getElem?_ofList, or_comm]

theorem isEmpty_ofList : (ofList entries).isEmpty = true ↔ entries = [] := by
  rw [isEmpty, Std.ExtTreeMap.isEmpty_eq_size_beq_zero, beq_iff_eq]
  change (ofList entries).size = 0 ↔ _
  rw [size_ofList]
  simp

end OfList

theorem enter_enter_self (record : Record) (field : String) (value value' : Option Value) :
    (record.enter field value).enter field value' = record.enter field value' := by
  refine congrArg mk (Std.ExtTreeMap.ext_getElem? fun field' => ?_)
  simp only [enter, Std.ExtTreeMap.getElem?_insert]
  split <;> rfl

theorem enter_comm {field field' : String} (ne : field ≠ field') (record : Record)
    (value value' : Option Value) :
    (record.enter field value).enter field' value' =
      (record.enter field' value').enter field value := by
  refine congrArg mk (Std.ExtTreeMap.ext_getElem? fun field'' => ?_)
  simp only [enter, Std.ExtTreeMap.getElem?_insert, Std.LawfulEqCmp.compare_eq_iff_eq]
  split
  · next same =>
    subst same
    rw [if_neg ne]
  · rfl

/-! ## Entries as members -/

/-- An entry as a member of an object: null enters the field as absent. -/
def member : String × Option Value → Option String × Json
  | (field, some value) => (some field, value.toJson)
  | (field, none) => (some field, .null)

theorem entriesOfMembers?_map_member (entries : List (String × Option Value)) :
    entriesOfMembers? (entries.map member) = some entries := by
  induction entries with
  | nil => rfl
  | cons entry entries ih =>
      obtain ⟨field, value⟩ := entry
      cases value with
      | none => simp [member, entriesOfMembers?, entryOfJson?, ih]
      | some value =>
          have said : entryOfJson? value.toJson = some (some value) := by
            rw [← Option.map_some, ← Value.ofJson?_toJson]
            cases value <;> rfl
          simp [member, entriesOfMembers?, said, ih]

/-- The object with the entries as members denotes their record, whatever its text. -/
theorem read?_of_valueText {entries : List (String × Option Value)} {text : String}
    (h : Json.ValueText text.toList (.object (entries.map member))) :
    read? text = some (ofList entries) := by
  rw [read?, Json.read_of_valueText h, Option.bind_some, ofJson?, entriesOfMembers?_map_member]
  rfl

end Record

namespace Host

/-! ## Entries as pairs -/

/-- What an entry hands over as the value of its field. -/
def Argument.ofEntry : Option Value → Argument
  | some (.integer n) => .integer n.toInt
  | some (.text s) => .text s
  | none => .nothing

theorem Argument.toEntry_ofEntry (field : String) (value : Option Value) :
    (ofEntry value).toEntry field = .ok value := by
  match value with
  | some (.integer n) => simp [ofEntry, toEntry]
  | some (.text s) => rfl
  | none => rfl

namespace Mapping

/-- An entry as a pair of a mapping. -/
def pair (entry : String × Option Value) : Option String × Argument :=
  (some entry.1, .ofEntry entry.2)

theorem toEntries_map_pair (entries : List (String × Option Value)) :
    toEntries (entries.map pair) = .ok entries := by
  induction entries with
  | nil => rfl
  | cons entry entries ih =>
      rw [List.map_cons, pair, toEntries, Argument.toEntry_ofEntry, ih]
      rfl

/-- Enters a value among entries: in the place of the first one for its field, or at the end. -/
def overwrite (field : String) (value : Option Value) :
    List (String × Option Value) → List (String × Option Value)
  | [] => [(field, value)]
  | entry :: entries =>
    if entry.1 = field then (field, value) :: entries
    else entry :: overwrite field value entries

section Overwrite

variable {field : String} {value : Option Value} {entries : List (String × Option Value)}

theorem put_map_pair :
    put (entries.map pair) (some field) (.ofEntry value) =
      (overwrite field value entries).map pair := by
  induction entries with
  | nil => rfl
  | cons entry entries ih =>
      by_cases same : entry.1 = field
      · simp [put, pair, overwrite, same]
      · simp only [List.map_cons, put, pair, overwrite, Option.some.injEq, same, if_false] at ih ⊢
        rw [ih]

theorem mem_fields_overwrite {field' : String} :
    field' ∈ (overwrite field value entries).map Prod.fst ↔
      field' ∈ entries.map Prod.fst ∨ field' = field := by
  induction entries with
  | nil => simp [overwrite]
  | cons entry entries ih =>
      rw [overwrite]
      split
      · next same =>
        subst same
        simp
        tauto
      · rw [List.map_cons, List.mem_cons, ih, List.map_cons, List.mem_cons, or_assoc]

theorem nodup_overwrite (distinct : (entries.map Prod.fst).Nodup) :
    ((overwrite field value entries).map Prod.fst).Nodup := by
  induction entries with
  | nil => simp [overwrite]
  | cons entry entries ih =>
      obtain ⟨fresh, distinct⟩ := List.nodup_cons.1 distinct
      rw [overwrite]
      split
      · next same =>
        subst same
        exact List.nodup_cons.2 ⟨fresh, distinct⟩
      · next other =>
        refine List.nodup_cons.2 ⟨?_, ih distinct⟩
        rw [mem_fields_overwrite]
        exact not_or.2 ⟨fresh, other⟩

/-- An entry makes no difference to what is entered for other fields later. -/
theorem foldl_enter (fresh : field ∉ entries.map Prod.fst) (record : Record) :
    entries.foldl (fun record entry => record.enter entry.1 entry.2) (record.enter field value) =
      (entries.foldl (fun record entry => record.enter entry.1 entry.2) record).enter field
        value := by
  induction entries generalizing record with
  | nil => rfl
  | cons entry entries ih =>
      obtain ⟨ne, fresh⟩ := not_or.1 (fun h => fresh (List.mem_cons.2 h))
      rw [List.foldl_cons, Record.enter_comm ne, ih fresh, List.foldl_cons]

theorem ofList_overwrite (distinct : (entries.map Prod.fst).Nodup) :
    Record.ofList (overwrite field value entries) = (Record.ofList entries).enter field value := by
  rw [Record.ofList, Record.ofList]
  generalize Record.empty = record
  induction entries generalizing record with
  | nil => rfl
  | cons entry entries ih =>
      obtain ⟨fresh, distinct⟩ := List.nodup_cons.1 distinct
      rw [overwrite]
      split
      · next same =>
        subst same
        rw [List.foldl_cons, List.foldl_cons, ← foldl_enter fresh, Record.enter_enter_self]
      · rw [List.foldl_cons, ih distinct, List.foldl_cons]

end Overwrite

/-- The mapping with the entries as pairs has their record, though it keeps only one pair for
each field. -/
theorem toRecord_ofPairs (entries : List (String × Option Value)) :
    (ofPairs (entries.map pair)).toRecord = .ok (Record.ofList entries) := by
  have kept : ∃ kept, ofPairs (entries.map pair) = kept.map pair ∧ (kept.map Prod.fst).Nodup ∧
      Record.ofList kept = Record.ofList entries := by
    induction entries using List.reverseRecOn with
    | nil => exact ⟨[], rfl, List.nodup_nil, rfl⟩
    | append_singleton entries entry ih =>
        obtain ⟨kept, hpairs, distinct, same⟩ := ih
        refine ⟨overwrite entry.1 entry.2 kept, ?_, nodup_overwrite distinct, ?_⟩
        · rw [ofPairs] at hpairs
          rw [List.map_append, ofPairs, List.foldl_append, hpairs, ← put_map_pair]
          rfl
        · rw [ofList_overwrite distinct, Record.ofList_append_singleton, same]
  obtain ⟨kept, hpairs, -, same⟩ := kept
  rw [hpairs, toRecord, toEntries_map_pair, ← same]
  rfl

end Mapping

end Host

namespace Record

open Host

/-- The members of an object, the pairs of a mapping and what is entered one after the other give
one record if they say the same, and so the same verdicts. The last entry for a field holds: a
value is found where it has one, and none where it enters the field as absent or where there is
no entry. The record counts the different fields that are entered. -/
theorem last_entry_holds (entries : List (String × Option Value)) (text : String)
    (h : Json.ValueText text.toList (.object (entries.map member))) :
    ∃ record : Record, read? text = some record ∧
      (Mapping.ofPairs (entries.map Mapping.pair)).toRecord = .ok record ∧
      entries.foldl perform empty = record ∧
      (∀ field v, record.get? field = some v ↔ LastEntry entries field (some v)) ∧
      (∀ field, record.get? field = none ↔
        LastEntry entries field none ∨ ∀ entry ∈ entries, entry.1 ≠ field) ∧
      record.size = (entries.map Prod.fst).toFinset.card ∧
      (record.isEmpty = true ↔ entries = []) ∧
      ∀ r : Rule, judgeOne r (Mapping.ofPairs (entries.map Mapping.pair)) =
        (r.evaluate record).mapError .evaluation := by
  have converted := Mapping.toRecord_ofPairs entries
  refine ⟨ofList entries, read?_of_valueText h, converted, foldl_perform entries,
    fun _ _ => get?_ofList_eq_some_iff, fun _ => get?_ofList_eq_none_iff, size_ofList,
    isEmpty_ofList, fun r => ?_⟩
  rw [judgeOne, converted]
  rfl

/-- Two fields with several entries each. -/
def repeated : List (String × Option Value) :=
  [("a", some (.integer 7)), ("b", some (.text "😀")), ("a", none),
    ("a", some (.integer Int64.minValue)), ("b", none)]

/-- These entries as an object, with escapes and white space. -/
def repeatedText : String :=
  "\x7b\"a\":7, \"b\":\"\\ud83d\\ude00\",\"a\":null," ++
    "\"\\u0061\" :-9223372036854775808,\"b\":null\x7d"

section Repeated

open Json

theorem valueText_repeatedText :
    ValueText repeatedText.toList (.object (repeated.map member)) := by
  have a : StringText ['"', 'a', '"'] (some "a") := @stringText_of_all "a" (by decide)
  have b : StringText ['"', 'b', '"'] (some "b") := @stringText_of_all "b" (by decide)
  have escaped : StringText ['"', '\\', 'u', '0', '0', '6', '1', '"'] (some "a") :=
    @StringText.quoted ['\\', 'u', '0', '0', '6', '1'] _ _ (.unit rfl rfl rfl rfl .nil) (by decide)
  have pair : StringText
      ['"', '\\', 'u', 'd', '8', '3', 'd', '\\', 'u', 'd', 'e', '0', '0', '"'] (some "😀") :=
    @StringText.quoted ['\\', 'u', 'd', '8', '3', 'd', '\\', 'u', 'd', 'e', '0', '0'] _ _
      (.unit rfl rfl rfl rfl (.unit rfl rfl rfl rfl .nil)) (by decide)
  have seven : ValueText ['7'] (Value.integer 7).toJson :=
    .number ⟨⟨false, [7], by decide⟩, [], none, by decide⟩
  have lowest : ValueText "-9223372036854775808".toList (Value.integer Int64.minValue).toJson := by
    convert ValueText.number ⟨⟨true, [9, 2, 2, 3, 3, 7, 2, 0, 3, 6, 8, 5, 4, 7, 7, 5, 8, 0, 8],
      by decide⟩, [], none, by decide⟩ using 1
    · decide +kernel
    · exact congrArg Json.number (by decide +kernel)
  have unspaced : ∀ c ∈ [], isSpace c = true := List.forall_mem_nil _
  have space : ∀ c ∈ [' '], isSpace c = true := List.forall_mem_singleton.2 rfl
  have whole := ValueText.object (.more (.mk unspaced a unspaced seven)
    (.more (.mk space b unspaced (.string pair)) (.more (.mk unspaced a unspaced .null)
      (.more (.mk unspaced escaped space lowest) (.one (.mk unspaced b unspaced .null))))))
  convert whole using 1
  · decide +kernel
  · rfl

end Repeated

/-- The last entries are the smallest integer of 64 bits and an absence, though both fields had
other values before. -/
theorem last_entry_holds_repeated :
    Json.ValueText repeatedText.toList (.object (repeated.map member)) ∧
      ∃ record : Record, read? repeatedText = some record ∧
        (Mapping.ofPairs (repeated.map Mapping.pair)).toRecord = .ok record ∧
        repeated.foldl perform empty = record ∧
        record.get? "a" = some (.integer Int64.minValue) ∧ record.get? "b" = none ∧
        record.size = 2 ∧ record.isEmpty = false := by
  obtain ⟨record, hread, hmapping, hperform, found, missing, size, isEmpty, -⟩ :=
    last_entry_holds repeated repeatedText valueText_repeatedText
  refine ⟨valueText_repeatedText, record, hread, hmapping, hperform, ?_, ?_, size, ?_⟩
  · apply (found _ _).2
    exact ⟨repeated.take 3, [("b", none)], rfl, by decide⟩
  · apply (missing _).2
    exact .inl ⟨repeated.take 4, [], rfl, List.forall_mem_nil _⟩
  · exact Bool.eq_false_iff.2 fun h => List.cons_ne_nil _ _ (isEmpty.1 h)

end Record

end Eligibility
