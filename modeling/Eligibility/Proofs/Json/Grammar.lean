import Eligibility.Proofs.Json.Members

/-!
# Texts of a value

What the texts of a JSON value are is told here by the grammar of the notation
(`ValueText`), and not by the reader. A value has many texts: there may be white space
between its parts, a character of a string may stand for itself or be escaped, and a number
may have an exponent.

The reader reads each of them as the value that it is a text of (`read_of_valueText`).
-/

namespace Eligibility.Json

/-! ## Strings -/

/-- A character that stands for itself in a string: no quote, no backslash and no control
character. -/
def isUnescaped (c : Char) : Bool :=
  c ≠ '"' && c ≠ '\\' && 0x20 ≤ c.toNat

/-- What stands between the quotes of a string, and the pieces that it consists of. -/
inductive PiecesText : List Char → List Piece → Prop
  | nil : PiecesText [] []
  | char {c : Char} {cs : List Char} {pieces : List Piece} (h : isUnescaped c = true)
    (later : PiecesText cs pieces) : PiecesText (c :: cs) (.char c :: pieces)
  | escape {e c : Char} {cs : List Char} {pieces : List Piece} (h : shortEscape? e = some c)
    (later : PiecesText cs pieces) : PiecesText ('\\' :: e :: cs) (.char c :: pieces)
  | unit {c₁ c₂ c₃ c₄ : Char} {d₁ d₂ d₃ d₄ : Nat} {cs : List Char} {pieces : List Piece}
    (h₁ : hexValue? c₁ = some d₁) (h₂ : hexValue? c₂ = some d₂) (h₃ : hexValue? c₃ = some d₃)
    (h₄ : hexValue? c₄ = some d₄) (later : PiecesText cs pieces) :
    PiecesText ('\\' :: 'u' :: c₁ :: c₂ :: c₃ :: c₄ :: cs)
      (.unit (16 * (16 * (16 * d₁ + d₂) + d₃) + d₄) :: pieces)

/-- The text of a string: its pieces between quotes. -/
inductive StringText : List Char → Option String → Prop
  | quoted {cs : List Char} {pieces : List Piece} {text : Option String}
    (h : PiecesText cs pieces) (spelled : (charsOfPieces? pieces).map String.ofList = text) :
    StringText ('"' :: (cs ++ ['"'])) text

/-- Characters that stand for themselves spell their own text. -/
theorem stringText_of_all {s : String} (unescaped : s.toList.all isUnescaped = true) :
    StringText ('"' :: (s.toList ++ ['"'])) (some s) := by
  have pieces : ∀ cs : List Char, cs.all isUnescaped = true →
      PiecesText cs (cs.map Piece.char) ∧ charsOfPieces? (cs.map Piece.char) = some cs := by
    intro cs unescaped
    induction cs with
    | nil => exact ⟨.nil, rfl⟩
    | cons c cs ih =>
        rw [List.all_cons, Bool.and_eq_true] at unescaped
        obtain ⟨later, spelled⟩ := ih unescaped.2
        exact ⟨.char unescaped.1 later, by simp [charsOfPieces?, spelled]⟩
  obtain ⟨pieces, spelled⟩ := pieces s.toList unescaped
  exact .quoted pieces (by simp [spelled])

/-! ## Values -/

mutual

/-- The text of a value, with or without white space around it. -/
inductive ValueText : List Char → Json → Prop
  | before {c : Char} {cs : List Char} {j : Json} (space : isSpace c = true)
    (h : ValueText cs j) : ValueText (c :: cs) j
  | behind {c : Char} {cs : List Char} {j : Json} (space : isSpace c = true)
    (h : ValueText cs j) : ValueText (cs ++ [c]) j
  | null : ValueText ['n', 'u', 'l', 'l'] .null
  | true : ValueText ['t', 'r', 'u', 'e'] (.bool true)
  | false : ValueText ['f', 'a', 'l', 's', 'e'] (.bool false)
  | number (x : Decimal) : ValueText x.text (.number x.number)
  | string {cs : List Char} {text : Option String} (h : StringText cs text) :
    ValueText cs (.string text)
  | emptyArray {gap : List Char} (spaces : ∀ c ∈ gap, isSpace c = true) :
    ValueText ('[' :: (gap ++ [']'])) (.array [])
  | array {cs : List Char} {items : List Json} (h : ItemsText cs items) :
    ValueText ('[' :: (cs ++ [']'])) (.array items)
  | emptyObject {gap : List Char} (spaces : ∀ c ∈ gap, isSpace c = true) :
    ValueText ('{' :: (gap ++ ['}'])) (.object [])
  | object {cs : List Char} {members : List (Option String × Json)}
    (h : MembersText cs members) : ValueText ('{' :: (cs ++ ['}'])) (.object members)

/-- The items of an array, with commas between them. -/
inductive ItemsText : List Char → List Json → Prop
  | one {cs : List Char} {j : Json} (h : ValueText cs j) : ItemsText cs [j]
  | more {cs cs' : List Char} {j : Json} {items : List Json} (h : ValueText cs j)
    (later : ItemsText cs' items) : ItemsText (cs ++ ',' :: cs') (j :: items)

/-- A member of an object: its name with or without white space around it, a colon, and its
value. -/
inductive MemberText : List Char → Option String × Json → Prop
  | mk {gap gap' cs cs' : List Char} {name : Option String} {j : Json}
    (spaces : ∀ c ∈ gap, isSpace c = true) (h : StringText cs name)
    (spaces' : ∀ c ∈ gap', isSpace c = true) (h' : ValueText cs' j) :
    MemberText (gap ++ (cs ++ (gap' ++ ':' :: cs'))) (name, j)

/-- The members of an object, with commas between them. -/
inductive MembersText : List Char → List (Option String × Json) → Prop
  | one {cs : List Char} {member : Option String × Json} (h : MemberText cs member) :
    MembersText cs [member]
  | more {cs cs' : List Char} {member : Option String × Json}
    {members : List (Option String × Json)} (h : MemberText cs member)
    (later : MembersText cs' members) : MembersText (cs ++ ',' :: cs') (member :: members)

end

namespace Reader

/-! ## Reading strings -/

/-- The pieces of a string are read one after the other. -/
theorem result_pieces {cs : List Char} {pieces : List Piece} (h : PiecesText cs pieces)
    (isName : Bool) (done : List Piece) (frames : List Frame) (rest : List Char) :
    (⟨.string isName done .plain, frames⟩ : Reader).result (cs ++ rest) =
      (⟨.string isName (pieces.reverse ++ done) .plain, frames⟩ : Reader).result rest := by
  induction h generalizing done with
  | nil => rfl
  | @char c cs pieces h later ih =>
      simp only [isUnescaped, ne_eq, Bool.and_eq_true, decide_eq_true_eq] at h
      obtain ⟨⟨quote, backslash⟩, printable⟩ := h
      rw [List.cons_append, result_char _ _ _ _ quote backslash (Nat.not_lt.2 printable), ih]
      simp
  | escape h later ih =>
      rw [List.cons_append, List.cons_append, result_shortEscape _ _ _ _ h, ih]
      simp
  | @unit _ _ _ _ _ _ _ _ cs pieces h₁ h₂ h₃ h₄ later ih =>
      have unit := result_unit isName done frames (cs ++ rest) h₁ h₂ h₃ h₄
      rw [ih] at unit
      simpa using unit

theorem result_stringText {cs : List Char} {text : Option String} (h : StringText cs text)
    {phase : Phase} (opening : Opening phase) (frames : List Frame) (rest : List Char) :
    (⟨phase, frames⟩ : Reader).result (cs ++ rest) = (store (.string text) frames).result rest := by
  obtain @⟨cs, pieces, _, h, rfl⟩ := h
  have begin := step_of_opening (c := '"') opening rfl (by decide) frames
  have finish : (⟨.string false (pieces.reverse ++ []) .plain, frames⟩ : Reader).step '"' =
      some (store (.string ((charsOfPieces? pieces).map String.ofList)) frames) := by
    simp [step, inString, storeString]
  rw [List.cons_append, result_cons_of_step begin, List.append_assoc]
  exact (result_pieces h false [] frames _).trans (result_cons_of_step finish rest)

/-! ## Reading values -/

theorem endsNumber_space {c : Char} (space : isSpace c = true) (rest : List Char) :
    EndsNumber (c :: rest) := by
  intro c' rest' h part
  cases h
  simp only [isSpace, Bool.or_eq_true, decide_eq_true_eq, or_assoc] at space
  obtain ⟨phase, _, _, _, _, _⟩ := part
  rcases space with rfl | rfl | rfl | rfl
  all_goals cases phase <;> rfl

theorem result_store_space {c : Char} (space : isSpace c = true) (j : Json) (frames : List Frame)
    (rest : List Char) :
    (store j frames).result (c :: rest) = (store j frames).result rest :=
  result_cons_of_step (step_store_space j frames space) rest

mutual

/-- A value is read from each of its texts, in front of every rest and inside of every
container. -/
theorem result_valueText {cs : List Char} {j : Json} (h : ValueText cs j) {phase : Phase}
    (opening : Opening phase) (frames : List Frame) {rest : List Char} (ends : EndsNumber rest) :
    (⟨phase, frames⟩ : Reader).result (cs ++ rest) = (store j frames).result rest := by
  match h with
  | .before space h =>
      have settled : ∀ c, (⟨phase, frames⟩ : Reader).step c = between phase frames c := by
        rcases opening with rfl | rfl
        all_goals exact fun c => rfl
      rw [List.cons_append, ← result_valueText h opening frames ends]
      exact result_spaces settled (List.forall_mem_singleton.2 space) _
  | .behind space h =>
      rw [List.append_assoc, List.singleton_append,
        result_valueText h opening frames (endsNumber_space space rest)]
      exact result_store_space space j frames rest
  | .null => exact result_chars .null opening frames ends
  | .true => exact result_chars (.bool true) opening frames ends
  | .false => exact result_chars (.bool false) opening frames ends
  | .number x => exact result_decimal x opening frames ends
  | .string h => exact result_stringText h opening frames rest
  | .emptyArray spaces =>
      have begin := step_of_opening (c := '[') opening rfl (by decide) frames
      rw [List.cons_append, result_cons_of_step begin, List.append_assoc]
      exact result_spaces (fun _ => rfl) spaces _
  | .array h =>
      have begin := step_of_opening (c := '[') opening rfl (by decide) frames
      rw [List.cons_append, result_cons_of_step begin, List.append_assoc]
      exact result_itemsText h (.inr rfl) [] frames rest
  | .emptyObject spaces =>
      have begin := step_of_opening (c := '{') opening rfl (by decide) frames
      rw [List.cons_append, result_cons_of_step begin, List.append_assoc]
      exact result_spaces (fun _ => rfl) spaces _
  | .object h =>
      -- Members are known by what their name and their value are read as, so they are not read
      -- anew here.
      obtain ⟨m, ms, rfl, rfl⟩ := exists_objectText h
      have whole : '{' :: (m.text ++ laterMemberText ms ++ ['}']) = objectText (m :: ms) := by
        simp [objectText]
      rw [whole]
      exact result_objectText (m :: ms) opening frames rest

theorem result_itemsText {cs : List Char} {items : List Json} (h : ItemsText cs items)
    {phase : Phase} (opening : Opening phase) (done : List Json) (frames : List Frame)
    (rest : List Char) :
    (⟨phase, .array done :: frames⟩ : Reader).result (cs ++ ']' :: rest) =
      (store (.array (done.reverse ++ items)) frames).result rest := by
  match h with
  | .one (j := j) h =>
      rw [result_valueText h opening _ (endsNumber_cons (.inr (.inl rfl)) rest),
        ← List.reverse_cons]
      rfl
  | .more (j := j) h later =>
      have comma : (store j (.array done :: frames)).step ',' =
          some ⟨.value, .array (j :: done) :: frames⟩ := rfl
      rw [List.append_assoc, List.cons_append,
        result_valueText h opening _ (endsNumber_cons (.inl rfl) _), result_cons_of_step comma,
        result_itemsText later (.inl rfl), List.reverse_cons, List.append_assoc,
        List.singleton_append]

/-- Members are read one by one. -/
theorem exists_objectText {cs : List Char} {members : List (Option String × Json)}
    (h : MembersText cs members) :
    ∃ (m : Member) (ms : List Member), m.text ++ laterMemberText ms = cs ∧
      (m :: ms).map Member.entry = members := by
  match h with
  | .one h =>
      obtain ⟨m, rfl, rfl⟩ := exists_memberText h
      exact ⟨m, [], List.append_nil _, rfl⟩
  | .more h later =>
      obtain ⟨m, rfl, rfl⟩ := exists_memberText h
      obtain ⟨m', ms, rfl, rfl⟩ := exists_objectText later
      exact ⟨m, m' :: ms, rfl, rfl⟩

theorem exists_memberText {cs : List Char} {member : Option String × Json}
    (h : MemberText cs member) : ∃ m : Member, m.text = cs ∧ m.entry = member := by
  match h with
  | @MemberText.mk gap gap' cs cs' name j spaces h spaces' h' =>
      have reads_name : read (String.ofList cs) = some (.string name) := by
        have h := result_stringText h (.inl rfl) [] []
        rw [List.append_nil] at h
        rw [read_ofList]
        exact h
      have reads_value : read (String.ofList cs') = some j := by
        have h := result_valueText h' (.inl rfl) [] endsNumber_nil
        rw [List.append_nil] at h
        rw [read_ofList]
        exact h
      obtain @⟨quoted, pieces, _, h, rfl⟩ := h
      exact ⟨⟨gap, quoted, gap', cs', _, j, List.forall_mem_append.2 ⟨spaces, spaces'⟩,
        reads_name, reads_value⟩, by simp [Member.text], rfl⟩

end

end Reader

/-- Each text of a value is read as the value. -/
theorem read_of_valueText {text : String} {j : Json} (h : ValueText text.toList j) :
    read text = some j := by
  have h := Reader.result_valueText h (.inl rfl) [] Reader.endsNumber_nil
  rw [List.append_nil] at h
  exact h

end Eligibility.Json
