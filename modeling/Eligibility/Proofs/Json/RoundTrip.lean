import Eligibility.Proofs.Json.Numbers

/-!
# Writing and reading

Reading the text of a value gives the value back (`read_write`), whatever the value
is: a string that is no text is written as a surrogate without its partner and read
as no text again, and a number keeps its digits.

The reader is followed through a text by what becomes of the text from here on
(`Reader.result`), so a statement about one value holds in front of every rest and
inside of every container. A number ends only where something follows that is not
part of it; the rest is one that ends it (`Delimited`).
-/

namespace Eligibility.Json

namespace Reader

/-- The value of the text, if `rest` is what remains of it. -/
def result (reader : Reader) (rest : List Char) : Option Json :=
  (rest.foldlM step reader).bind finish

@[simp] theorem result_nil (reader : Reader) : reader.result [] = reader.finish := rfl

theorem result_cons (reader : Reader) (c : Char) (rest : List Char) :
    reader.result (c :: rest) = (reader.step c).bind (·.result rest) := by
  rw [result, List.foldlM_cons]
  exact Option.bind_assoc _ _ _

theorem result_cons_eq_some_iff {reader : Reader} {c : Char} {rest : List Char} {j : Json} :
    reader.result (c :: rest) = some j ↔
      ∃ next, reader.step c = some next ∧ next.result rest = some j := by
  rw [result_cons, Option.bind_eq_some_iff]

theorem result_cons_of_step {reader reader' : Reader} {c : Char}
    (h : reader.step c = some reader') (rest : List Char) :
    reader.result (c :: rest) = reader'.result rest := by
  rw [result_cons, h]
  rfl

/-! ## Strings -/

section Units

variable (isName : Bool) (pieces : List Piece) (frames : List Frame)

theorem step_backslash :
    (⟨.string isName pieces .plain, frames⟩ : Reader).step '\\' =
      some ⟨.string isName pieces .escape, frames⟩ := rfl

theorem step_unit (count u : Nat) {c : Char} {d : Nat} (h : hexValue? c = some d) :
    (⟨.string isName pieces (.unit count u), frames⟩ : Reader).step c =
      some (if count = 3 then ⟨.string isName (.unit (16 * u + d) :: pieces) .plain, frames⟩
        else ⟨.string isName pieces (.unit (count + 1) (16 * u + d)), frames⟩) := by
  simp only [step, inString, h, Option.map_some]

/-- An escape of four digits is one unit. -/
theorem result_unit (rest : List Char) {c₁ c₂ c₃ c₄ : Char} {d₁ d₂ d₃ d₄ : Nat}
    (h₁ : hexValue? c₁ = some d₁) (h₂ : hexValue? c₂ = some d₂)
    (h₃ : hexValue? c₃ = some d₃) (h₄ : hexValue? c₄ = some d₄) :
    (⟨.string isName pieces .plain, frames⟩ : Reader).result
        ('\\' :: 'u' :: c₁ :: c₂ :: c₃ :: c₄ :: rest) =
      (⟨.string isName (.unit (16 * (16 * (16 * d₁ + d₂) + d₃) + d₄) :: pieces) .plain,
        frames⟩ : Reader).result rest := by
  have begin : (⟨.string isName pieces .escape, frames⟩ : Reader).step 'u' =
      some ⟨.string isName pieces (.unit 0 0), frames⟩ := rfl
  rw [result_cons_of_step (step_backslash isName pieces frames), result_cons_of_step begin,
    result_cons_of_step (step_unit isName pieces frames 0 0 h₁), if_neg (by decide),
    result_cons_of_step (step_unit isName pieces frames 1 _ h₂), if_neg (by decide),
    result_cons_of_step (step_unit isName pieces frames 2 _ h₃), if_neg (by decide),
    result_cons_of_step (step_unit isName pieces frames 3 _ h₄), if_pos rfl, Nat.mul_zero,
    Nat.zero_add]

/-- A character that needs no escape is one piece. -/
theorem result_char (rest : List Char) {c : Char} (quote : c ≠ '"') (backslash : c ≠ '\\')
    (printable : ¬c.toNat < 0x20) :
    (⟨.string isName pieces .plain, frames⟩ : Reader).result (c :: rest) =
      (⟨.string isName (.char c :: pieces) .plain, frames⟩ : Reader).result rest := by
  refine result_cons_of_step ?_ rest
  simp only [step, inString, if_neg quote, if_neg backslash, if_neg printable]

/-- A short escape is one piece. -/
theorem result_shortEscape (rest : List Char) {e c : Char} (h : shortEscape? e = some c) :
    (⟨.string isName pieces .plain, frames⟩ : Reader).result ('\\' :: e :: rest) =
      (⟨.string isName (.char c :: pieces) .plain, frames⟩ : Reader).result rest := by
  have ne : e ≠ 'u' := by
    rintro rfl
    cases h
  have char : (⟨.string isName pieces .escape, frames⟩ : Reader).step e =
      some ⟨.string isName (.char c :: pieces) .plain, frames⟩ := by
    simp only [step, inString, if_neg ne, h, Option.map_some]
  rw [result_cons_of_step (step_backslash isName pieces frames), result_cons_of_step char]

end Units

/-- Between the quotes of a string, `written` is read as one piece, and this piece
spells `c`. -/
def WritesChar (written : List Char) (c : Char) : Prop :=
  ∃ piece : Piece,
    (∀ later, charsOfPieces? (piece :: later) = (charsOfPieces? later).map (c :: ·)) ∧
    ∀ isName pieces frames rest,
      (⟨.string isName pieces .plain, frames⟩ : Reader).result (written ++ rest) =
        (⟨.string isName (piece :: pieces) .plain, frames⟩ : Reader).result rest

theorem writesChar_shortEscape {e c : Char} (h : shortEscape? e = some c) :
    WritesChar ['\\', e] c :=
  ⟨.char c, fun _ => rfl,
    fun isName pieces frames rest => result_shortEscape isName pieces frames rest h⟩

theorem hexValue?_hexDigit {n : Nat} (h : n < 16) : hexValue? (hexDigit n) = some n := by
  revert n
  decide

theorem writesChar_control {c : Char} (h : c.toNat < 0x20) :
    WritesChar ['\\', 'u', '0', '0', hexDigit (c.toNat / 16), hexDigit (c.toNat % 16)] c := by
  refine ⟨.unit c.toNat, ?_, ?_⟩
  · intro later
    have low : c.toNat < 0xD800 ∨ 0xE000 ≤ c.toNat := .inl (by omega)
    rw [charsOfPieces?.eq_def]
    dsimp only
    rw [if_pos low, Char.ofNat_toNat]
  · intro isName pieces frames rest
    have zero : hexValue? '0' = some 0 := rfl
    have high := hexValue?_hexDigit (n := c.toNat / 16) (by omega)
    have low := hexValue?_hexDigit (n := c.toNat % 16) (Nat.mod_lt _ (by decide))
    have value : 16 * (16 * (16 * 0 + 0) + c.toNat / 16) + c.toNat % 16 = c.toNat := by omega
    have read := result_unit isName pieces frames rest zero zero high low
    rw [value] at read
    exact read

theorem writesChar_self {c : Char} (quote : c ≠ '"') (backslash : c ≠ '\\')
    (h : ¬c.toNat < 0x20) : WritesChar [c] c :=
  ⟨.char c, fun _ => rfl,
    fun isName pieces frames rest => result_char isName pieces frames rest quote backslash h⟩

theorem writesChar_escapeChar (c : Char) : WritesChar (escapeChar c) c := by
  rw [escapeChar]
  -- the characters with a short escape
  iterate 7
    split
    · next h =>
      rw [h]
      exact writesChar_shortEscape rfl
  split
  · next h => exact writesChar_control h
  · next quote backslash _ _ _ _ _ h => exact writesChar_self quote backslash h

/-- What is written for characters is read as pieces that spell them. -/
theorem exists_pieces (cs : List Char) :
    ∃ read : List Piece, charsOfPieces? read = some cs ∧
      ∀ isName pieces frames rest,
        (⟨.string isName pieces .plain, frames⟩ : Reader).result
            (cs.flatMap escapeChar ++ rest) =
          (⟨.string isName (read.reverse ++ pieces) .plain, frames⟩ : Reader).result rest := by
  induction cs with
  | nil => exact ⟨[], rfl, fun _ _ _ _ => rfl⟩
  | cons c cs ih =>
      obtain ⟨read, spells, hread⟩ := ih
      obtain ⟨piece, hspells, hpiece⟩ := writesChar_escapeChar c
      refine ⟨piece :: read, ?_, ?_⟩
      · rw [hspells, spells]
        rfl
      · intro isName pieces frames rest
        rw [List.flatMap_cons, List.append_assoc, hpiece, hread, List.reverse_cons,
          List.append_assoc]
        rfl

/-- A string is read as the text that has been written, or as no text if it is none. -/
theorem exists_result_stringChars (text : Option String) (isName : Bool)
    (frames : List Frame) (rest : List Char) :
    ∃ (written : List Char) (pieces : List Piece), stringChars text rest = '"' :: written ∧
      (charsOfPieces? pieces.reverse).map String.ofList = text ∧
      (⟨.string isName [] .plain, frames⟩ : Reader).result written =
        (storeString isName pieces frames).bind (·.result rest) := by
  cases text with
  | none =>
      have zero : hexValue? '0' = some 0 := rfl
      have eight : hexValue? '8' = some 8 := rfl
      have thirteen : hexValue? 'd' = some 13 := rfl
      refine ⟨_, [.unit 0xD800], rfl, rfl, ?_⟩
      rw [result_unit isName [] frames _ thirteen eight zero zero, result_cons]
      rfl
  | some s =>
      obtain ⟨read, spells, hread⟩ := exists_pieces s.toList
      refine ⟨_, read.reverse, rfl, ?_, ?_⟩
      · rw [List.reverse_reverse, spells, Option.map_some, String.ofList_toList]
      · rw [hread, List.append_nil, result_cons]
        rfl

/-! ## Values -/

/-- A value may begin here. -/
def Opening (phase : Phase) : Prop :=
  phase = .value ∨ phase = .firstItem

theorem step_of_opening {phase : Phase} (opening : Opening phase) {c : Char}
    (space : isSpace c = false) (ne : c ≠ ']') (frames : List Frame) :
    (⟨phase, frames⟩ : Reader).step c = open? frames c := by
  rcases opening with rfl | rfl
  · simp [step, between, space]
  · simp [step, between, space, ne]

theorem result_string {phase : Phase} (opening : Opening phase) (frames : List Frame)
    (text : Option String) (rest : List Char) :
    (⟨phase, frames⟩ : Reader).result (stringChars text rest) =
      (store (.string text) frames).result rest := by
  obtain ⟨written, pieces, hwritten, rfl, hread⟩ :=
    exists_result_stringChars text false frames rest
  have begin := step_of_opening (c := '"') opening rfl (by decide) frames
  rw [hwritten, result_cons_of_step begin, hread]
  rfl

/-- A name may begin here. -/
def Naming (phase : Phase) : Prop :=
  phase = .name ∨ phase = .firstName

theorem result_name {phase : Phase} (naming : Naming phase)
    (members : List (Option String × Json)) (before : Option String) (frames : List Frame)
    (name : Option String) (rest : List Char) :
    (⟨phase, .object members before :: frames⟩ : Reader).result (stringChars name rest) =
      (⟨.colon, .object members name :: frames⟩ : Reader).result rest := by
  obtain ⟨written, pieces, hwritten, rfl, hread⟩ :=
    exists_result_stringChars name true (.object members before :: frames) rest
  have begin : (⟨phase, .object members before :: frames⟩ : Reader).step '"' =
      some ⟨.string true [] .plain, .object members before :: frames⟩ := by
    rcases naming with rfl | rfl <;> rfl
  rw [hwritten, result_cons_of_step begin, hread]
  rfl

theorem result_word (c : Char) (cs : List Char) (j : Json) (frames : List Frame)
    (rest : List Char) :
    (⟨.word (c :: cs) j, frames⟩ : Reader).result (c :: (cs ++ rest)) =
      (store j frames).result rest := by
  induction cs generalizing c with
  | nil =>
      have last : (⟨.word [c] j, frames⟩ : Reader).step c = some (store j frames) := if_pos rfl
      exact result_cons_of_step last rest
  | cons c' cs ih =>
      have next : (⟨.word (c :: c' :: cs) j, frames⟩ : Reader).step c =
          some ⟨.word (c' :: cs) j, frames⟩ := if_pos rfl
      rw [result_cons_of_step next]
      exact ih c'

/-- A text that does not carry on the number in front of it. -/
def EndsNumber (text : List Char) : Prop :=
  ∀ c rest, text = c :: rest → ∀ part : NumberPart, part.read c = none

theorem endsNumber_nil : EndsNumber [] := by
  intro c rest h
  cases h

theorem endsNumber_cons {c : Char} (h : c = ',' ∨ c = ']' ∨ c = '}') (rest : List Char) :
    EndsNumber (c :: rest) := by
  intro c' rest' h'
  cases h'
  intro part
  rcases h with rfl | rfl | rfl
  all_goals
    obtain ⟨phase, _, _, _, _, _⟩ := part
    cases phase <;> rfl

theorem step_store (j : Json) (frames : List Frame) (c : Char) :
    (store j frames).step c = between (store j frames).phase (store j frames).frames c := by
  cases frames with
  | nil => rfl
  | cons frame frames => cases frame <;> rfl

/-- The number is stored before the character behind it is read. -/
theorem step_number {part : NumberPart} {n : Number} (h : part.number? = some n)
    (frames : List Frame) {c : Char} (read : part.read c = none) :
    (⟨.number part, frames⟩ : Reader).step c = (store (.number n) frames).step c := by
  rw [step_store]
  simp only [step, read, h]
  rfl

/-- A number has ended where nothing carries it on. -/
theorem result_number {part : NumberPart} {n : Number} (h : part.number? = some n)
    (frames : List Frame) {rest : List Char} (ends : EndsNumber rest) :
    (⟨.number part, frames⟩ : Reader).result rest =
      (store (.number n) frames).result rest := by
  cases rest with
  | nil =>
      cases frames with
      | nil =>
          simp only [result_nil, finish, h]
          rfl
      | cons frame frames => cases frame <;> rfl
  | cons c rest =>
      have read : part.read c = none := ends c rest rfl part
      rw [result_cons, result_cons, step_number h frames read]

theorem result_read {first last : NumberPart} {cs : List Char}
    (h : cs.foldlM NumberPart.read first = some last) (frames : List Frame)
    (rest : List Char) :
    (⟨.number first, frames⟩ : Reader).result (cs ++ rest) =
      (⟨.number last, frames⟩ : Reader).result rest := by
  induction cs generalizing first with
  | nil =>
      cases h
      rfl
  | cons c cs ih =>
      rw [List.foldlM_cons] at h
      obtain ⟨next, hnext, h⟩ := Option.bind_eq_some_iff.1 h
      have step : (⟨.number first, frames⟩ : Reader).step c = some ⟨.number next, frames⟩ := by
        simp only [Reader.step, hnext]
      rw [List.cons_append, result_cons_of_step step, ih h]

/-- The first character of a number starts no other value, is no white space and
closes nothing. -/
theorem open?_of_start? {c : Char} {part : NumberPart} (h : NumberPart.start? c = some part)
    (frames : List Frame) :
    open? frames c = some ⟨.number part, frames⟩ ∧ isSpace c = false ∧ c ≠ ']' := by
  have ne : ∀ c', NumberPart.start? c' = none → c ≠ c' := by
    rintro c' none rfl
    rw [none] at h
    cases h
  refine ⟨?_, ?_, ne ']' rfl⟩
  · rw [open?.eq_def]
    split
    all_goals first | exact absurd rfl (ne _ rfl) | rw [h, Option.map_some]
  · simp [isSpace, ne ' ' rfl, ne '\t' rfl, ne '\n' rfl, ne '\r' rfl]

theorem result_decimal (x : Decimal) {phase : Phase} (opening : Opening phase)
    (frames : List Frame) {rest : List Char} (ends : EndsNumber rest) :
    (⟨phase, frames⟩ : Reader).result (x.text ++ rest) =
      (store (.number x.number) frames).result rest := by
  obtain ⟨c, cs, first, last, htext, hfirst, hlast, hnumber⟩ := NumberPart.exists_read_text x
  obtain ⟨hopen, space, ne⟩ := open?_of_start? hfirst frames
  have step := step_of_opening opening space ne frames
  rw [htext, List.cons_append, result_cons_of_step (step.trans hopen), result_read hlast,
    result_number hnumber frames ends]

theorem result_numberChars {phase : Phase} (opening : Opening phase) (frames : List Frame)
    (n : Number) {rest : List Char} (ends : EndsNumber rest) :
    (⟨phase, frames⟩ : Reader).result (numberChars n rest) =
      (store (.number n) frames).result rest := by
  obtain ⟨x, rfl, written⟩ := exists_decimal n
  rw [written, result_decimal x opening frames ends]

theorem endsNumber_laterItemChars (items : List Json) (rest : List Char) :
    EndsNumber (laterItemChars items (']' :: rest)) := by
  cases items with
  | nil => exact endsNumber_cons (.inr (.inl rfl)) rest
  | cons item items => exact endsNumber_cons (.inl rfl) _

theorem endsNumber_laterMemberChars (members : List (Option String × Json))
    (rest : List Char) : EndsNumber (laterMemberChars members ('}' :: rest)) := by
  cases members with
  | nil => exact endsNumber_cons (.inr (.inr rfl)) rest
  | cons member members => exact endsNumber_cons (.inl rfl) _

mutual

/-- A value is read from its text, in front of every rest and inside of every
container. -/
theorem result_chars (j : Json) {phase : Phase} (opening : Opening phase)
    (frames : List Frame) {rest : List Char} (ends : EndsNumber rest) :
    (⟨phase, frames⟩ : Reader).result (j.chars rest) = (store j frames).result rest := by
  match j with
  | .null =>
      have begin := step_of_opening (c := 'n') opening rfl (by decide) frames
      rw [chars, result_cons_of_step begin]
      exact result_word 'u' ['l', 'l'] .null frames rest
  | .bool true =>
      have begin := step_of_opening (c := 't') opening rfl (by decide) frames
      rw [chars, result_cons_of_step begin]
      exact result_word 'r' ['u', 'e'] (.bool true) frames rest
  | .bool false =>
      have begin := step_of_opening (c := 'f') opening rfl (by decide) frames
      rw [chars, result_cons_of_step begin]
      exact result_word 'a' ['l', 's', 'e'] (.bool false) frames rest
  | .number n => exact result_numberChars opening frames n ends
  | .string text => exact result_string opening frames text rest
  | .array items =>
      have begin := step_of_opening (c := '[') opening rfl (by decide) frames
      rw [chars, result_cons_of_step begin]
      cases items with
      | nil => rfl
      | cons item items =>
          have hitem := result_chars item (.inr rfl) (.array [] :: frames)
            (endsNumber_laterItemChars items rest)
          rw [itemChars, hitem]
          exact result_laterItemChars items [item] frames rest
  | .object members =>
      have begin := step_of_opening (c := '{') opening rfl (by decide) frames
      rw [chars, result_cons_of_step begin]
      cases members with
      | nil => rfl
      | cons member members =>
          obtain ⟨name, value⟩ := member
          have hvalue := result_chars value (.inl rfl) (.object [] name :: frames)
            (endsNumber_laterMemberChars members rest)
          rw [memberChars, result_name (.inr rfl)]
          exact hvalue.trans (result_laterMemberChars members [(name, value)] name frames rest)

theorem result_laterItemChars (items done : List Json) (frames : List Frame)
    (rest : List Char) :
    (⟨.separator, .array done :: frames⟩ : Reader).result
        (laterItemChars items (']' :: rest)) =
      (store (.array (done.reverse ++ items)) frames).result rest := by
  match items with
  | [] =>
      rw [List.append_nil]
      rfl
  | item :: items =>
      have hitem := result_chars item (.inl rfl) (.array done :: frames)
        (endsNumber_laterItemChars items rest)
      have hitems := result_laterItemChars items (item :: done) frames rest
      rw [List.reverse_cons, List.append_assoc] at hitems
      exact hitem.trans hitems

theorem result_laterMemberChars (members done : List (Option String × Json))
    (before : Option String) (frames : List Frame) (rest : List Char) :
    (⟨.separator, .object done before :: frames⟩ : Reader).result
        (laterMemberChars members ('}' :: rest)) =
      (store (.object (done.reverse ++ members)) frames).result rest := by
  match members with
  | [] =>
      rw [List.append_nil]
      rfl
  | (name, value) :: members =>
      have hname := result_name (.inl rfl) done before frames name
        (':' :: value.chars (laterMemberChars members ('}' :: rest)))
      have hvalue := result_chars value (.inl rfl) (.object done name :: frames)
        (endsNumber_laterMemberChars members rest)
      have hmembers := result_laterMemberChars members ((name, value) :: done) name frames rest
      rw [List.reverse_cons, List.append_assoc] at hmembers
      exact hname.trans (hvalue.trans hmembers)

end

end Reader

theorem read_ofList (cs : List Char) : read (String.ofList cs) = Reader.start.result cs := by
  rw [read, String.toList_ofList]
  rfl

/-- Reading the text of a value gives the value. -/
theorem read_write (j : Json) : read j.write = some j := by
  rw [write, read_ofList]
  exact Reader.result_chars j (.inl rfl) [] Reader.endsNumber_nil

end Eligibility.Json
