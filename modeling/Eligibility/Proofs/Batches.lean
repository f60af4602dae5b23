import Eligibility.Proofs.Session

/-!
# Batches of records

A rule that is sent on the wire judges one record, or a batch of them. A batch goes through its
records twice: all of them are converted before any is judged. So it fails for a record that
cannot be converted even where an earlier one has no verdict, and is otherwise the list of what
the same rule answers record by record, up to the first fault among these.
-/

namespace Eligibility.Host

/-- The verdict of a rule on the record of one mapping. -/
def judgeOne (r : Rule) (attributes : Mapping) : Except Fault Bool :=
  attributes.toRecord >>= judge r

section Batch

variable {r : Rule} {records : List Mapping}

/-- The conversion of a mapping that has no record is the fault of the batch. -/
theorem judgeAll_of_toRecord {before : List Mapping} {attributes : Mapping} {fault : Fault}
    (earlier : ∀ a ∈ before, ∃ record, a.toRecord = .ok record)
    (h : attributes.toRecord = .error fault) (after : List Mapping) :
    judgeAll r (before ++ attributes :: after) = .error fault := by
  rw [judgeAll, Except.mapM_eq_error earlier h]
  rfl

/-- Mappings that all have records are judged as they are one by one. -/
theorem judgeAll_eq_mapM (h : ∀ a ∈ records, ∃ record, a.toRecord = .ok record) :
    judgeAll r records = records.mapM (judgeOne r) := by
  obtain ⟨converted, hconverted⟩ := Except.exists_mapM_eq_ok_iff.2 h
  rw [judgeAll, hconverted]
  rw [Except.mapM_eq_ok_iff] at hconverted
  change converted.mapM (judge r) = _
  induction records generalizing converted with
  | nil =>
      obtain rfl := List.map_eq_nil_iff.1 hconverted.symm
      rfl
  | cons attributes records ih =>
      obtain ⟨record, converted, rfl, hrecord, hrecords⟩ := List.map_eq_cons_iff.1 hconverted.symm
      have later := ih (fun a ha => h a (List.mem_cons_of_mem _ ha)) converted hrecords.symm
      have first : judgeOne r attributes = judge r record := by
        rw [judgeOne, ← hrecord]
        rfl
      rw [List.mapM_cons, List.mapM_cons, later, first]

end Batch

namespace Session

/-- A rule on the wire, handed over as a text. -/
def onWire (text : String) : Source :=
  .given (.wire (.text text))

section Answers

variable {session : Session} {source : Source} {x : Combination}

theorem answer_judge (h : session.obtain source = .ok x) (attributes : Mapping) :
    session.answer source (.judge attributes) =
      (judgeOne x.rule attributes).map .verdict := by
  change _ = Answer.verdict <$> judgeOne x.rule attributes
  rw [answer_of_obtain_eq_ok h, Use.answer, judgeOne, map_bind]
  simp only [bind_pure_comp]

theorem answer_judgeAll (h : session.obtain source = .ok x) (records : List Mapping) :
    session.answer source (.judgeAll records) =
      (judgeAll x.rule records).map .verdicts := by
  change _ = Answer.verdicts <$> judgeAll x.rule records
  rw [answer_of_obtain_eq_ok h, Use.answer, bind_pure_comp]

theorem answer_judge_eq_ok_iff (h : session.obtain source = .ok x) {attributes : Mapping}
    {verdict : Bool} :
    session.answer source (.judge attributes) = .ok (.verdict verdict) ↔
      judgeOne x.rule attributes = .ok verdict := by
  rw [answer_judge h, Except.map_eq_ok_iff]
  simp

theorem answer_judgeAll_eq_ok_iff (h : session.obtain source = .ok x) {records : List Mapping}
    {verdicts : List Bool} :
    session.answer source (.judgeAll records) = .ok (.verdicts verdicts) ↔
      judgeAll x.rule records = .ok verdicts := by
  rw [answer_judgeAll h, Except.map_eq_ok_iff]
  simp

end Answers

/-- What becomes of a batch, next to what becomes of its records one by one: a text that is no
rule fails in the same way for both; a record that cannot be converted fails the batch, the
first such one before any is judged; and otherwise the batch has the verdicts of the records in
their order, if all of them have one, and else the fault of the first that has none. -/
theorem answer_judgeAll_eq (session : Session) (text : String) (records : List Mapping) :
    (∀ e, Rule.ofWire session.config text = .error e →
      session.answer (onWire text) (.judgeAll records) = .error (.wire e) ∧
        ∀ attributes, session.answer (onWire text) (.judge attributes) = .error (.wire e)) ∧
    ∀ r, Rule.ofWire session.config text = .ok r →
      (∀ before attributes after fault, records = before ++ attributes :: after →
        (∀ earlier ∈ before, ∃ record, Mapping.toRecord earlier = .ok record) →
        Mapping.toRecord attributes = .error fault →
        session.answer (onWire text) (.judgeAll records) = .error fault ∧
          session.answer (onWire text) (.judge attributes) = .error fault) ∧
      ((∀ attributes ∈ records, ∃ record, Mapping.toRecord attributes = .ok record) →
        (∀ verdicts, session.answer (onWire text) (.judgeAll records) = .ok (.verdicts verdicts) ↔
          records.map (fun attributes => session.answer (onWire text) (.judge attributes)) =
            verdicts.map fun verdict => .ok (.verdict verdict)) ∧
        ((∃ verdicts, session.answer (onWire text) (.judgeAll records) =
            .ok (.verdicts verdicts)) ↔
          ∀ attributes ∈ records, ∃ verdict,
            session.answer (onWire text) (.judge attributes) = .ok (.verdict verdict)) ∧
        ∀ before attributes after fault, records = before ++ attributes :: after →
          (∀ earlier ∈ before, ∃ verdict,
            session.answer (onWire text) (.judge earlier) = .ok (.verdict verdict)) →
          session.answer (onWire text) (.judge attributes) = .error fault →
          session.answer (onWire text) (.judgeAll records) = .error fault) := by
  refine ⟨fun e h => ?_, fun r h => ⟨?_, fun converts => ⟨?_, ?_, ?_⟩⟩⟩
  · have failed : session.obtain (onWire text) = .error (.wire e) := obtain_wire_eq_error h
    exact ⟨answer_of_obtain_eq_error failed _, fun _ => answer_of_obtain_eq_error failed _⟩
  all_goals have obtained : session.obtain (onWire text) = .ok ⟨r, []⟩ := obtain_wire_eq_ok h
  · rintro before attributes after fault rfl earlier hfault
    rw [answer_judgeAll obtained, answer_judge obtained, judgeOne, hfault,
      judgeAll_of_toRecord earlier hfault]
    exact ⟨rfl, rfl⟩
  · intro verdicts
    rw [answer_judgeAll_eq_ok_iff obtained, judgeAll_eq_mapM converts, Except.mapM_eq_ok_iff]
    simp only [List.ext_getElem_iff, List.length_map, List.getElem_map,
      answer_judge_eq_ok_iff obtained]
  · simp only [answer_judgeAll_eq_ok_iff obtained, judgeAll_eq_mapM converts,
      Except.exists_mapM_eq_ok_iff, answer_judge_eq_ok_iff obtained]
  · rintro before attributes after fault rfl earlier hfault
    simp only [answer_judge_eq_ok_iff obtained] at earlier
    rw [answer_judge obtained, Except.map_eq_error_iff] at hfault
    rw [answer_judgeAll obtained, judgeAll_eq_mapM converts, Except.mapM_eq_error earlier hfault]
    rfl

/-- `paired` holds of these attributes. -/
def granted : Mapping := [(some "a", .integer 2), (some "b", .integer 3)]

/-- `paired` does not hold of these attributes, and is decided by the first of them. -/
def refused : Mapping := [(some "a", .integer 1)]

/-- `paired` has no verdict on these attributes. -/
def undecided : Mapping := [(some "a", .integer 2)]

/-- These attributes cannot be converted. -/
def unconverted : Mapping := [(some "a", .flag true)]

theorem answer_judgeAll_eq_paired :
    (Rule.ofWire {} "[" = .error .malformed ∧
      ({} : Session).answer (onWire "[") (.judgeAll [unconverted]) = .error (.wire .malformed)) ∧
    Rule.ofWire {} Rule.paired.toWire = .ok .paired ∧
    (({} : Session).answer (onWire Rule.paired.toWire) (.judge undecided) =
        .error (.evaluation (.missingField "b")) ∧
      ({} : Session).answer (onWire Rule.paired.toWire) (.judgeAll [undecided, unconverted]) =
        .error (.attributeType "a" true)) ∧
    ({} : Session).answer (onWire Rule.paired.toWire) (.judgeAll [granted, refused]) =
        .ok (.verdicts [true, false]) ∧
    ({} : Session).answer (onWire Rule.paired.toWire) (.judgeAll [refused, undecided, granted]) =
        .error (.evaluation (.missingField "b")) := by
  have malformed : Rule.ofWire ({} : Session).config "[" = .error .malformed := by decide +kernel
  have sent : Rule.ofWire ({} : Session).config Rule.paired.toWire = .ok .paired :=
    Rule.ofWire_toWire_of_le (by decide) (by decide +kernel)
  have judged : ∀ attributes,
      ({} : Session).answer (onWire Rule.paired.toWire) (.judge attributes) =
        (judgeOne .paired attributes).map .verdict := answer_judge (obtain_wire_eq_ok sent)
  have lacking : ({} : Session).answer (onWire Rule.paired.toWire) (.judge undecided) =
      .error (.evaluation (.missingField "b")) := (judged undecided).trans (by decide +kernel)
  have decided : ({} : Session).answer (onWire Rule.paired.toWire) (.judge refused) =
      .ok (.verdict false) := (judged refused).trans (by decide +kernel)
  have ofGranted : ∃ record, Mapping.toRecord granted = .ok record := ⟨_, rfl⟩
  have ofRefused : ∃ record, Mapping.toRecord refused = .ok record := ⟨_, rfl⟩
  have ofUndecided : ∃ record, Mapping.toRecord undecided = .ok record := ⟨_, rfl⟩
  refine ⟨⟨malformed, ((answer_judgeAll_eq {} "[" [unconverted]).1 _ malformed).1⟩, sent,
    ⟨lacking, ?_⟩, ?_, ?_⟩
  · obtain ⟨unconvertible, -⟩ := (answer_judgeAll_eq {} _ [undecided, unconverted]).2 _ sent
    exact (unconvertible [undecided] unconverted [] _ rfl (by simpa using ofUndecided) rfl).1
  · obtain ⟨-, converting⟩ := (answer_judgeAll_eq {} _ [granted, refused]).2 _ sent
    refine ((converting (by simp [ofGranted, ofRefused])).1 _).2 ?_
    simp only [judged]
    decide +kernel
  · obtain ⟨-, converting⟩ := (answer_judgeAll_eq {} _ [refused, undecided, granted]).2 _ sent
    exact (converting (by simp [ofGranted, ofRefused, ofUndecided])).2.2 [refused] undecided
      [granted] _ rfl (by simp [decided]) lacking

end Session

end Eligibility.Host
