import Eligibility.Proofs.Json.Containers

/-!
# Members of an object

An object is written as its members with commas between them. A `Member` is the text of one
of them, in any spelling, with what it says.

The text of a value is read in the same way wherever it stands, and that of a string also as a
name (`result_quoted`). So an object is read as the members that it is written with, whatever
their order, and whatever stands around it (`result_objectText`).
-/

namespace Eligibility.Json

/-! ## Texts of members -/

/-- A member of an object as it is written, and what it says: its name stands in quotes, the
text of its value behind a colon, and there may be white space around the name. -/
structure Member where
  before : List Char
  quoted : List Char
  behind : List Char
  valueText : List Char
  name : Option String
  value : Json
  spaces : ∀ c ∈ before ++ behind, isSpace c = true
  reads_name : read (String.ofList ('"' :: (quoted ++ ['"']))) = some (string name)
  reads_value : read (String.ofList valueText) = some value

namespace Member

def text (m : Member) : List Char :=
  m.before ++ '"' :: (m.quoted ++ '"' :: (m.behind ++ ':' :: m.valueText))

theorem text_append (m : Member) (rest : List Char) :
    m.text ++ rest =
      m.before ++ '"' :: (m.quoted ++ '"' :: (m.behind ++ ':' :: (m.valueText ++ rest))) := by
  simp [text]

/-- What the member says. -/
def entry (m : Member) : Option String × Json := (m.name, m.value)

/-- The member as the library itself writes it. -/
def written (name : String) (value : Json) : Member where
  before := []
  quoted := name.toList.flatMap escapeChar
  behind := []
  valueText := value.chars []
  name := some name
  value := value
  spaces := by simp
  reads_name := read_write (.string (some name))
  reads_value := read_write value

end Member

/-- The texts of members that follow another one. -/
def laterMemberText : List Member → List Char
  | [] => []
  | m :: ms => ',' :: (m.text ++ laterMemberText ms)

/-- The text of an object, from its opening to its closing bracket. -/
def objectText : List Member → List Char
  | [] => ['{', '}']
  | m :: ms => '{' :: (m.text ++ (laterMemberText ms ++ ['}']))

namespace Reader

/-! ## Names -/

/-- Behind the value of a text no string ends. -/
theorem result_done_quote (j : Json) (cs : List Char) :
    (⟨.done j, []⟩ : Reader).result (cs ++ ['"']) = none := by
  induction cs with
  | nil => rfl
  | cons c cs ih =>
      rw [List.cons_append, result_cons, step_done]
      split
      · exact ih
      · rfl

/-- What is read as a string where a value stands is read as a name where one stands. -/
theorem result_quoted {quoted : List Char} {name : Option String} {pieces : List Piece}
    {phase : StringPhase}
    (h : (⟨.string false pieces phase, []⟩ : Reader).result (quoted ++ ['"']) =
      some (.string name))
    (members : List (Option String × Json)) (before : Option String) (frames : List Frame)
    (rest : List Char) :
    (⟨.string true pieces phase, .object members before :: frames⟩ : Reader).result
        (quoted ++ '"' :: rest) =
      (⟨.colon, .object members name :: frames⟩ : Reader).result rest := by
  induction quoted generalizing pieces phase with
  | nil =>
      rw [List.nil_append, result_cons] at h ⊢
      by_cases plain : phase = .plain
      · subst plain
        cases h
        rfl
      · rcases step_string pieces (c := '"') fun h => absurd h plain with none | ⟨_, _, some⟩
        · rw [none] at h
          cases h
        · rw [some] at h
          cases h
  | cons c quoted ih =>
      rw [List.cons_append, result_cons] at h ⊢
      by_cases closing : phase = .plain ∧ c = '"'
      · obtain ⟨rfl, rfl⟩ := closing
        exact absurd (h.symm.trans (result_done_quote _ quoted)) (by simp)
      · rcases step_string pieces fun plain quote => closing ⟨plain, quote⟩ with
          none | ⟨_, _, some⟩
        · rw [none] at h
          cases h
        · rw [some] at h ⊢
          exact ih h

/-! ## Objects -/

theorem result_spaces {phase : Phase} {frames : List Frame} {cs : List Char}
    (settled : ∀ c, (⟨phase, frames⟩ : Reader).step c = between phase frames c)
    (spaces : ∀ c ∈ cs, isSpace c = true) (rest : List Char) :
    (⟨phase, frames⟩ : Reader).result (cs ++ rest) = (⟨phase, frames⟩ : Reader).result rest := by
  induction cs with
  | nil => rfl
  | cons c cs ih =>
      obtain ⟨space, spaces⟩ := List.forall_mem_cons.1 spaces
      have stay : (⟨phase, frames⟩ : Reader).step c = some ⟨phase, frames⟩ := by
        rw [settled, between.eq_def, if_pos space]
      rw [List.cons_append, result_cons_of_step stay, ih spaces]

/-- A member is put in front of those that have been read. -/
theorem result_member (m : Member) {phase : Phase} (naming : Naming phase)
    (members : List (Option String × Json)) (name : Option String) (frames : List Frame)
    {rest : List Char} (ends : EndsNumber rest) :
    (⟨phase, .object members name :: frames⟩ : Reader).result (m.text ++ rest) =
      (⟨.separator, .object (m.entry :: members) m.name :: frames⟩ : Reader).result rest := by
  obtain ⟨before, behind⟩ := List.forall_mem_append.1 m.spaces
  have settled : ∀ c, (⟨phase, .object members name :: frames⟩ : Reader).step c =
      between phase (.object members name :: frames) c := by
    rcases naming with rfl | rfl
    all_goals exact fun c => rfl
  have quote : (⟨phase, .object members name :: frames⟩ : Reader).step '"' =
      some ⟨.string true [] .plain, .object members name :: frames⟩ := by
    rcases naming with rfl | rfl <;> rfl
  have colon : (⟨.colon, .object members m.name :: frames⟩ : Reader).step ':' =
      some ⟨.value, .object members m.name :: frames⟩ := rfl
  have hname : (⟨.string false [] .plain, []⟩ : Reader).result (m.quoted ++ ['"']) =
      some (.string m.name) := by
    have h := m.reads_name
    rw [read_ofList] at h
    exact h
  rw [m.text_append, result_spaces settled before, result_cons_of_step quote,
    result_quoted hname, result_spaces (fun c => rfl) behind, result_cons_of_step colon,
    result_of_read m.reads_value _ ends]
  rfl

theorem endsNumber_laterMemberText (ms : List Member) (rest : List Char) :
    EndsNumber (laterMemberText ms ++ '}' :: rest) := by
  cases ms with
  | nil => exact endsNumber_cons (.inr (.inr rfl)) rest
  | cons m ms => exact endsNumber_cons (.inl rfl) _

theorem result_laterMemberText (ms : List Member) (done : List (Option String × Json))
    (name : Option String) (frames : List Frame) (rest : List Char) :
    (⟨.separator, .object done name :: frames⟩ : Reader).result
        (laterMemberText ms ++ '}' :: rest) =
      (store (.object (done.reverse ++ ms.map Member.entry)) frames).result rest := by
  induction ms generalizing done name with
  | nil =>
      rw [List.map_nil, List.append_nil]
      rfl
  | cons m ms ih =>
      have comma : (⟨.separator, .object done name :: frames⟩ : Reader).step ',' =
          some ⟨.name, .object done name :: frames⟩ := rfl
      rw [laterMemberText, List.cons_append, result_cons_of_step comma, List.append_assoc,
        result_member m (.inl rfl) _ _ _ (endsNumber_laterMemberText ms rest), ih,
        List.reverse_cons, List.append_assoc, List.map_cons]
      rfl

/-- An object is read as its members, in the order in which they are written. -/
theorem result_objectText (ms : List Member) {phase : Phase} (opening : Opening phase)
    (frames : List Frame) (rest : List Char) :
    (⟨phase, frames⟩ : Reader).result (objectText ms ++ rest) =
      (store (.object (ms.map Member.entry)) frames).result rest := by
  have begin := step_of_opening (c := '{') opening rfl (by decide) frames
  cases ms with
  | nil => exact result_cons_of_step begin ('}' :: rest)
  | cons m ms =>
      rw [objectText, List.cons_append, result_cons_of_step begin, List.append_assoc,
        List.append_assoc, List.singleton_append,
        result_member m (.inr rfl) _ _ _ (endsNumber_laterMemberText ms rest),
        result_laterMemberText]
      rfl

end Reader

theorem read_objectText (ms : List Member) :
    read (String.ofList (objectText ms)) = some (.object (ms.map Member.entry)) := by
  have h := Reader.result_objectText ms (.inl rfl) [] []
  rw [List.append_nil] at h
  rw [read_ofList]
  exact h

/-! ## A looser layout -/

namespace Member

/-- A member with a blank between its colon and the text of its value. -/
def spaced (name : String) {text : List Char} {value : Json}
    (reads : read (String.ofList text) = some value) : Member :=
  { written name value with
    valueText := ' ' :: text
    reads_value := by
      have blank : Reader.start.step ' ' = some Reader.start := rfl
      rw [read_ofList, Reader.result_cons_of_step blank, ← read_ofList]
      exact reads }

/-- The member with a blank in front of its name. -/
def indented (m : Member) : Member :=
  { m with
    before := [' ']
    spaces := by
      have behind := (List.forall_mem_append.1 m.spaces).2
      exact List.forall_mem_cons.2 ⟨rfl, behind⟩ }

/-- The members with a blank behind each comma. -/
def spread : List Member → List Member
  | [] => []
  | m :: ms => m :: ms.map indented

theorem map_entry_spread (ms : List Member) : (spread ms).map entry = ms.map entry := by
  cases ms with
  | nil => rfl
  | cons m ms =>
      rw [spread, List.map_cons, List.map_map, List.map_cons]
      rfl

end Member

end Eligibility.Json
