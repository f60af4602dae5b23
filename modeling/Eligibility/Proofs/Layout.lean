import Eligibility.Proofs.Spelling

/-!
# Layouts of rule text

Which texts are read as tokens, and as which. A layout of words puts blank characters
around and between them, which it may leave out next to a parenthesis only (`LaidOut`).
The words of a list of tokens spell one token after the other (`Spelling`), and a value
may have many literals (`Value.SpelledBy`).

A text has the words that it is a layout of (`words_eq_iff`). Words are read as the tokens
that they spell (`Spelling.tokensOfWords_eq`) and spell whatever they are read as
(`spelling_of_tokensOfWords`), so the conditions among them are ones that rule text can
express. The main statement puts these together: a text is read as tokens exactly when it
is a layout of words that spell them.
-/

namespace Eligibility

/-! ## Words laid out -/

/-- A parenthesis as a word. -/
def IsParenthesisWord (text : List Char) : Prop :=
  text = ['('] ∨ text = [')']

/-- The text, which starts at byte offset `position`, is made up of these words and of
the blank characters behind each of them. Between two words there is at least one,
unless a parenthesis is next to the gap. -/
inductive Layout : Nat → List Char → List Word → Prop where
  | nil {position : Nat} : Layout position [] []
  | cons {position : Nat} {text gap rest : List Char} {later : List Word}
      (blank : ∀ c ∈ gap, isBlank c = true)
      (apart : gap = [] → ∀ next ∈ later.head?,
        IsParenthesisWord text ∨ IsParenthesisWord next.text)
      (laid : Layout (position + width text + width gap) rest later) :
      Layout position (text ++ (gap ++ rest)) (⟨text, position⟩ :: later)

/-- A layout with blank characters before the first word as well. -/
def LaidOut (position : Nat) (text : List Char) (words : List Word) : Prop :=
  ∃ gap rest : List Char, (∀ c ∈ gap, isBlank c = true) ∧ text = gap ++ rest ∧
    Layout (position + width gap) rest words

theorem isParenthesis_iff {c : Char} : isParenthesis c = true ↔ c = '(' ∨ c = ')' := by
  simp [isParenthesis]

theorem isParenthesisWord_iff {text : List Char} :
    IsParenthesisWord text ↔ ∃ c, isParenthesis c = true ∧ text = [c] := by
  constructor
  · rintro (rfl | rfl)
    · exact ⟨'(', rfl, rfl⟩
    · exact ⟨')', rfl, rfl⟩
  · rintro ⟨c, parenthesis, rfl⟩
    rcases isParenthesis_iff.1 parenthesis with rfl | rfl
    · exact .inl rfl
    · exact .inr rfl

theorem isWordChar_eq_false_of_isBlank {c : Char} (h : isBlank c = true) :
    isWordChar c = false := by
  rw [isWordChar, h, Bool.not_true, Bool.and_false]

/-- A word that carries on no run of word characters is a parenthesis. -/
theorem isParenthesisWord_of_breaksWord {text rest : List Char} (word : IsWord text)
    (breaks : BreaksWord (text ++ rest)) : IsParenthesisWord text := by
  rcases word with parenthesis | ⟨ne, chars⟩
  · exact isParenthesisWord_iff.2 parenthesis
  · cases text with
    | nil => exact absurd rfl ne
    | cons c cs =>
        have char := chars c List.mem_cons_self
        rw [breaks c (cs ++ rest) rfl] at char
        contradiction

namespace LaidOut

/-- A word is laid out in front of others if it is a parenthesis or what follows does
not carry it on. -/
theorem cons {position : Nat} {text rest : List Char} {later : List Word}
    (laid : LaidOut (position + width text) rest later)
    (areWords : ∀ w ∈ later, IsWord w.text)
    (breaks : IsParenthesisWord text ∨ BreaksWord rest) :
    LaidOut position (text ++ rest) (⟨text, position⟩ :: later) := by
  obtain ⟨gap, body, blank, rfl, laid⟩ := laid
  refine ⟨[], text ++ (gap ++ body), by simp, rfl, .cons blank ?_ laid⟩
  -- with no gap, the next word begins where this one ends
  rintro rfl next hnext
  refine breaks.imp_right fun breaks => ?_
  cases laid with
  | nil => cases hnext
  | cons _ _ _ =>
      obtain rfl := Option.mem_some_iff.1 hnext
      exact isParenthesisWord_of_breaksWord (areWords _ List.mem_cons_self) breaks

theorem blank {position : Nat} {c : Char} {text : List Char} {words : List Word}
    (h : isBlank c = true) (laid : LaidOut (position + c.utf8Size) text words) :
    LaidOut position (c :: text) words := by
  obtain ⟨gap, rest, blank, rfl, laid⟩ := laid
  refine ⟨c :: gap, rest, ?_, rfl, ?_⟩
  · intro a ha
    rcases List.mem_cons.1 ha with rfl | ha
    · exact h
    · exact blank a ha
  · rwa [width_cons, ← Nat.add_assoc]

end LaidOut

theorem breaksWord_dropWhile (text : List Char) : BreaksWord (text.dropWhile isWordChar) := by
  intro c rest h
  have first := List.head?_dropWhile_not isWordChar text
  rw [h] at first
  simpa using first

/-- A text is a layout of its words. -/
theorem laidOut_wordsFrom (position : Nat) (text : List Char) :
    LaidOut position text (wordsFrom position text) := by
  fun_induction wordsFrom position text with
  | case1 position => exact ⟨[], [], by simp, rfl, .nil⟩
  | case2 position c cs blank ih => exact ih.blank blank
  | case3 position c cs notBlank parenthesis ih =>
      exact ih.cons (fun _ => isWord_of_mem_wordsFrom)
        (.inl (isParenthesisWord_iff.2 ⟨c, parenthesis, rfl⟩))
  | case4 position c cs notBlank notParenthesis text ih =>
      have split : c :: cs = text ++ cs.dropWhile isWordChar := by
        rw [List.cons_append, List.takeWhile_append_dropWhile]
      rw [split]
      exact ih.cons (fun _ => isWord_of_mem_wordsFrom) (.inr (breaksWord_dropWhile cs))

theorem wordsFrom_gap {gap : List Char} (blank : ∀ c ∈ gap, isBlank c = true)
    (position : Nat) (rest : List Char) :
    wordsFrom position (gap ++ rest) = wordsFrom (position + width gap) rest := by
  induction gap generalizing position with
  | nil => rfl
  | cons c gap ih =>
      rw [List.cons_append, wordsFrom_blank (blank c List.mem_cons_self),
        ih fun a ha => blank a (List.mem_cons_of_mem c ha), width_cons, Nat.add_assoc]

/-- A gap in front of a layout carries on no word, unless it is empty and the first word
of the layout is no parenthesis. -/
theorem Layout.breaksWord {position : Nat} {gap rest : List Char} {words : List Word}
    (laid : Layout position rest words) (blank : ∀ c ∈ gap, isBlank c = true)
    (apart : gap = [] → ∀ next ∈ words.head?, IsParenthesisWord next.text) :
    BreaksWord (gap ++ rest) := by
  cases gap with
  | cons c gap =>
      exact breaksWord_cons (isWordChar_eq_false_of_isBlank (blank c List.mem_cons_self)) _
  | nil =>
      cases laid with
      | nil => exact breaksWord_nil
      | cons _ _ _ =>
          rcases apart rfl _ (Option.mem_some_self _) with rfl | rfl
          all_goals exact breaksWord_cons (by decide) _

/-- The words of a layout are found in it, if they are words at all. -/
theorem Layout.wordsFrom_eq {position : Nat} {text : List Char} {words : List Word}
    (laid : Layout position text words) (areWords : ∀ w ∈ words, IsWord w.text) :
    wordsFrom position text = words := by
  induction laid with
  | nil => exact wordsFrom_nil _
  | @cons position text gap rest later blank apart laid ih =>
      have read := ih fun w hw => areWords w (List.mem_cons_of_mem _ hw)
      rcases areWords _ List.mem_cons_self with ⟨c, parenthesis, rfl⟩ | ⟨ne, chars⟩
      · rw [width_cons, width_nil, Nat.add_zero] at read
        rw [List.singleton_append, wordsFrom_parenthesis parenthesis, wordsFrom_gap blank, read]
      · have notParenthesis : ¬IsParenthesisWord text := by
          rintro (rfl | rfl)
          all_goals exact absurd (chars _ List.mem_cons_self) (by decide)
        have breaks := laid.breaksWord blank fun none next hnext =>
          (apart none next hnext).resolve_left notParenthesis
        rw [wordsFrom_word ne chars breaks, wordsFrom_gap blank, read]

/-- The words of a text are the only ones that it is a layout of. -/
theorem words_eq_iff {text : List Char} {found : List Word} :
    words text = found ↔ LaidOut 0 text found ∧ ∀ w ∈ found, IsWord w.text := by
  constructor
  · rintro rfl
    exact ⟨laidOut_wordsFrom 0 text, fun _ => isWord_of_mem_wordsFrom⟩
  · rintro ⟨⟨gap, rest, blank, rfl, laid⟩, areWords⟩
    rw [words, wordsFrom_gap blank, laid.wordsFrom_eq areWords]

/-! ## Literals -/

/-- The words that spell a value: an integer in decimal digits, behind a minus sign or
not, with as many zeros in front as one likes; a text between single quotes, with no
quote, parenthesis or blank character in it. -/
inductive Value.SpelledBy : Value → List Char → Prop where
  | integer {n : Int64} {digits : List Char} (ne : digits ≠ [])
      (decimal : ∀ d ∈ digits, d.isDigit = true)
      (value : n.toInt = Nat.ofDigitChars 10 digits 0) :
      SpelledBy (.integer n) digits
  | negative {n : Int64} {digits : List Char} (ne : digits ≠ [])
      (decimal : ∀ d ∈ digits, d.isDigit = true)
      (value : n.toInt = -(Nat.ofDigitChars 10 digits 0 : Nat)) :
      SpelledBy (.integer n) ('-' :: digits)
  | text {s : String}
      (plain : ∀ c ∈ s.toList, c ≠ '\'' ∧ c ≠ '(' ∧ c ≠ ')' ∧ isBlank c = false) :
      SpelledBy (.text s) ('\'' :: (s.toList ++ ['\'']))

theorem isNumeral_iff {text : List Char} :
    isNumeral text = true ↔ text ≠ [] ∧ ∀ c ∈ text, c.isDigit = true := by
  simp [isNumeral]

/-- Digits without a sign spell their value. -/
theorem integerWord?_of_isNumeral {text : List Char} (numeral : isNumeral text = true) :
    integerWord? text = some ((Nat.ofDigitChars 10 text 0 : Nat) : Int) := by
  rw [integerWord?, if_pos numeral]
  rintro digits rfl
  exact absurd ((isNumeral_iff.1 numeral).2 '-' List.mem_cons_self) (by decide)

theorem integerWord?_eq_some_iff {text : List Char} {n : Int} :
    integerWord? text = some n ↔
      (isNumeral text = true ∧ n = (Nat.ofDigitChars 10 text 0 : Nat)) ∨
        ∃ digits, text = '-' :: digits ∧ isNumeral digits = true ∧
          n = -(Nat.ofDigitChars 10 digits 0 : Nat) := by
  constructor
  · intro h
    rw [integerWord?.eq_def] at h
    split at h
    · next digits =>
      split at h
      · next numeral =>
        cases h
        exact .inr ⟨digits, rfl, numeral, rfl⟩
      · cases h
    · split at h
      · next numeral =>
        cases h
        exact .inl ⟨numeral, rfl⟩
      · cases h
  · rintro (⟨numeral, rfl⟩ | ⟨digits, rfl, numeral, rfl⟩)
    · exact integerWord?_of_isNumeral numeral
    · rw [integerWord?, if_pos numeral]

theorem quotedWord?_eq_some {text inner : List Char} (h : quotedWord? text = some inner) :
    text = '\'' :: (inner ++ ['\'']) := by
  rw [quotedWord?.eq_def] at h
  split at h
  · next rest =>
    split at h
    · next closed =>
      cases h
      rw [Bool.and_eq_true, decide_eq_true_eq] at closed
      obtain ⟨inner, rfl⟩ := List.getLast?_eq_some_iff.1 closed.1
      rw [List.dropLast_concat]
    · cases h
  · cases h

theorem isQuotable_iff {c : Char} :
    isQuotable c = true ↔ c ≠ '\'' ∧ c ≠ '(' ∧ c ≠ ')' ∧ isBlank c = false := by
  rw [isQuotable, Bool.and_eq_true, and_comm]
  simp [isWordChar, isParenthesis, and_assoc]

theorem Value.spelledBy_integer_iff {i : Int64} {text : List Char} :
    (Value.integer i).SpelledBy text ↔ integerWord? text = some i.toInt := by
  rw [integerWord?_eq_some_iff]
  constructor
  · intro h
    cases h with
    | integer ne decimal value => exact .inl ⟨isNumeral_iff.2 ⟨ne, decimal⟩, value⟩
    | @negative _ digits ne decimal value =>
        exact .inr ⟨digits, rfl, isNumeral_iff.2 ⟨ne, decimal⟩, value⟩
  · rintro (⟨numeral, value⟩ | ⟨digits, rfl, numeral, value⟩)
    · obtain ⟨ne, decimal⟩ := isNumeral_iff.1 numeral
      exact .integer ne decimal value
    · obtain ⟨ne, decimal⟩ := isNumeral_iff.1 numeral
      exact .negative ne decimal value

theorem Value.spelledBy_text_iff {s : String} {text : List Char} (word : IsWord text) :
    (Value.text s).SpelledBy text ↔ quotedWord? text = some s.toList := by
  constructor
  · intro h
    cases h with
    | text plain => exact quotedWord?_quote fun c hc => (plain c hc).1
  · intro h
    have quotable := isQuotable_of_quotedWord? word h
    obtain rfl := quotedWord?_eq_some h
    exact .text fun c hc => isQuotable_iff.1 (quotable c hc)

theorem Value.SpelledBy.isQuotable {s : String} {text : List Char}
    (h : (Value.text s).SpelledBy text) : ∀ c ∈ s.toList, isQuotable c = true := by
  cases h with
  | text plain => exact fun c hc => isQuotable_iff.2 (plain c hc)

theorem Value.SpelledBy.isWordChar {v : Value} {text : List Char} (h : v.SpelledBy text) :
    ∀ c ∈ text, isWordChar c = true := by
  cases h with
  | integer ne decimal value => exact fun d hd => isWordChar_of_isDigit (decimal d hd)
  | negative ne decimal value =>
      refine List.forall_mem_cons.2 ⟨by decide, ?_⟩
      exact fun d hd => isWordChar_of_isDigit (decimal d hd)
  | @text s plain =>
      rw [← toList_literal_text]
      refine isWordChar_of_mem_literal ?_
      rintro s' ⟨⟩
      exact (Value.SpelledBy.text plain).isQuotable

theorem Value.SpelledBy.isWord {v : Value} {text : List Char} (h : v.SpelledBy text) :
    IsWord text := by
  refine .inr ⟨?_, h.isWordChar⟩
  cases h with
  | integer ne decimal value => exact ne
  | negative ne decimal value => exact List.cons_ne_nil _ _
  | text plain => exact List.cons_ne_nil _ _

/-- A word is read as the value that it spells. -/
theorem literalWord_eq_ok_iff {text : List Char} {v : Value} (word : IsWord text) :
    literalWord text = .ok v ↔ v.SpelledBy text := by
  cases v with
  | integer i =>
      rw [Value.spelledBy_integer_iff]
      cases hinteger : integerWord? text with
      | none => cases hquoted : quotedWord? text <;> simp [literalWord, hinteger, hquoted]
      | some n =>
          rw [Option.some.injEq, ← int64?_eq_some_iff]
          cases hn : int64? n <;> simp [literalWord, hinteger, hn]
  | text s =>
      rw [Value.spelledBy_text_iff word]
      constructor
      · intro h
        cases hinteger : integerWord? text with
        | none =>
            cases hquoted : quotedWord? text with
            | none => simp [literalWord, hinteger, hquoted] at h
            | some inner =>
                simp only [literalWord, hinteger, hquoted] at h
                cases h
                rw [String.toList_ofList]
        | some n => cases hn : int64? n <;> simp [literalWord, hinteger, hn] at h
      · intro h
        have quote := quotedWord?_eq_some h
        have hinteger : integerWord? text = none := by rw [quote, integerWord?_quote]
        simp only [literalWord, hinteger, h, String.ofList_toList]

/-! ## Tokens -/

/-- An ASCII letter or an underscore, and then ASCII letters, digits and underscores. -/
def IsIdentifier (text : List Char) : Prop :=
  ∃ c cs, text = c :: cs ∧ (c.isAlpha = true ∨ c = '_') ∧
    ∀ a ∈ cs, a.isAlphanum = true ∨ a = '_'

/-- The words spell the tokens, each token from the offset of its first word on. -/
inductive Spelling : List Word → List PlacedToken → Prop where
  | nil : Spelling [] []
  | opening {position : Nat} {words : List Word} {tokens : List PlacedToken}
      (later : Spelling words tokens) :
      Spelling (⟨['('], position⟩ :: words) (⟨.opening, position⟩ :: tokens)
  | closing {position : Nat} {words : List Word} {tokens : List PlacedToken}
      (later : Spelling words tokens) :
      Spelling (⟨[')'], position⟩ :: words) (⟨.closing, position⟩ :: tokens)
  | connective (op : Connective) {position : Nat} {words : List Word}
      {tokens : List PlacedToken} (later : Spelling words tokens) :
      Spelling (⟨op.word.toList, position⟩ :: words) (⟨.connective op, position⟩ :: tokens)
  | condition (c : Condition) {literal : List Char} {first second third : Nat}
      {words : List Word} {tokens : List PlacedToken}
      (identifier : IsIdentifier c.field.toList)
      (notConnective : ∀ op : Connective, c.field ≠ op.word)
      (spelled : c.value.SpelledBy literal) (later : Spelling words tokens) :
      Spelling
        (⟨c.field.toList, first⟩ :: ⟨c.comparator.symbol.toList, second⟩ ::
          ⟨literal, third⟩ :: words)
        (⟨.condition c, first⟩ :: tokens)

theorem isIdentifier_iff {text : List Char} : isIdentifier text = true ↔ IsIdentifier text := by
  cases text with
  | nil => simp [isIdentifier, IsIdentifier]
  | cons c cs =>
      simp only [isIdentifier, isIdentifierStart, isIdentifierRest, Bool.and_eq_true,
        Bool.or_eq_true, decide_eq_true_eq, List.all_eq_true]
      constructor
      · rintro ⟨first, later⟩
        exact ⟨c, cs, rfl, first, later⟩
      · rintro ⟨c', cs', h, first, later⟩
        cases h
        exact ⟨first, later⟩

theorem IsIdentifier.isWord {text : List Char} (h : IsIdentifier text) : IsWord text := by
  have chars := isIdentifierRest_of_mem (isIdentifier_iff.2 h)
  obtain ⟨c, cs, rfl, -⟩ := h
  exact .inr ⟨List.cons_ne_nil c cs, fun a ha => isWordChar_of_isIdentifierRest (chars a ha)⟩

theorem ofWord?_eq_none_iff {text : String} :
    Connective.ofWord? text = none ↔ ∀ op : Connective, text ≠ op.word := by
  rw [Option.eq_none_iff_forall_ne_some]
  exact forall_congr' fun op => not_congr Connective.ofWord?_eq_some_iff

theorem Token.ofWord?_eq_some {text : List Char} {token : Token}
    (h : Token.ofWord? text = some token) :
    (text = ['('] ∧ token = .opening) ∨ (text = [')'] ∧ token = .closing) ∨
      ∃ op : Connective, text = op.word.toList ∧ token = .connective op := by
  rw [Token.ofWord?.eq_def] at h
  split at h
  · cases h
    exact .inl ⟨rfl, rfl⟩
  · cases h
    exact .inr (.inl ⟨rfl, rfl⟩)
  · obtain ⟨op, hop, rfl⟩ := Option.map_eq_some_iff.1 h
    rw [Connective.ofWord?_eq_some_iff] at hop
    exact .inr (.inr ⟨op, by rw [← hop, String.toList_ofList], rfl⟩)

/-- What starts a condition spells no connective. -/
theorem ofWord?_eq_none_of_token {text : List Char} (h : Token.ofWord? text = none) :
    Connective.ofWord? (String.ofList text) = none := by
  rw [Token.ofWord?.eq_def] at h
  split at h
  · cases h
  · cases h
  · exact Option.map_eq_none_iff.1 h

theorem ofSymbol?_ofList_eq_some_iff {text : List Char} {comparator : Comparator} :
    Comparator.ofSymbol? (String.ofList text) = some comparator ↔
      text = comparator.symbol.toList := by
  rw [Comparator.ofSymbol?_eq_some_iff]
  constructor
  · intro h
    rw [← h, String.toList_ofList]
  · rintro rfl
    exact String.ofList_toList

/-- The three words of a condition spell it, also where the field is given by its
characters. -/
theorem Spelling.condition_of_text {field second third : Word} {comparator : Comparator}
    {v : Value} {words : List Word} {tokens : List PlacedToken}
    (identifier : IsIdentifier field.text)
    (notConnective : ∀ op : Connective, String.ofList field.text ≠ op.word)
    (symbol : second.text = comparator.symbol.toList) (spelled : v.SpelledBy third.text)
    (later : Spelling words tokens) :
    Spelling (field :: second :: third :: words)
      (⟨.condition ⟨String.ofList field.text, comparator, v⟩, field.position⟩ :: tokens) := by
  obtain ⟨field, position⟩ := field
  obtain ⟨symbol', position'⟩ := second
  obtain ⟨word, position''⟩ := third
  obtain rfl : symbol' = comparator.symbol.toList := symbol
  rw [← String.toList_ofList (l := field)] at identifier
  have whole : Spelling
      (⟨(String.ofList field).toList, position⟩ ::
        ⟨comparator.symbol.toList, position'⟩ :: ⟨word, position''⟩ :: words)
      (⟨.condition ⟨String.ofList field, comparator, v⟩, position⟩ :: tokens) :=
    .condition ⟨String.ofList field, comparator, v⟩ identifier notConnective spelled later
  rwa [String.toList_ofList] at whole

/-- What words are read as, they spell. -/
theorem spelling_of_tokensOfWords {words : List Word} {tokens : List PlacedToken}
    (areWords : ∀ w ∈ words, IsWord w.text) (h : tokensOfWords words = .ok tokens) :
    Spelling words tokens := by
  fun_induction tokensOfWords words generalizing tokens with
  | case1 =>
      cases h
      exact .nil
  | case2 first rest token alone ih =>
      obtain ⟨later, hlater, rfl⟩ := Except.map_eq_ok_iff.1 h
      have spelling := ih (fun w hw => areWords w (List.mem_cons_of_mem _ hw)) hlater
      obtain ⟨text, position⟩ := first
      rcases Token.ofWord?_eq_some alone with ⟨rfl, rfl⟩ | ⟨rfl, rfl⟩ | ⟨op, rfl, rfl⟩
      · exact spelling.opening
      · exact spelling.closing
      · exact spelling.connective op
  | case7 first starts identifier second comparator hcomparator third rest value literal ih =>
      obtain ⟨later, hlater, rfl⟩ := Except.map_eq_ok_iff.1 h
      have spelling := ih (fun w hw => areWords w (by simp [hw])) hlater
      have spelled := (literalWord_eq_ok_iff (areWords third (by simp))).1 literal
      have notConnective := ofWord?_eq_none_iff.1 (ofWord?_eq_none_of_token starts)
      exact spelling.condition_of_text (isIdentifier_iff.1 identifier) notConnective
        (ofSymbol?_ofList_eq_some_iff.1 hcomparator) spelled
  | case3 | case4 | case5 | case6 | case8 => cases h

/-- Words are read as the tokens that they spell, whatever words follow. -/
theorem Spelling.tokensOfWords_append {words : List Word} {tokens : List PlacedToken}
    (h : Spelling words tokens) (later : List Word) :
    tokensOfWords (words ++ later) = (tokensOfWords later).map (tokens ++ ·) := by
  have compose : ∀ (token : PlacedToken) (tokens : List PlacedToken),
      ((tokensOfWords later).map (tokens ++ ·)).map (token :: ·) =
        (tokensOfWords later).map (token :: tokens ++ ·) := by
    intro token tokens
    cases tokensOfWords later <;> rfl
  induction h with
  | nil =>
      rw [List.nil_append]
      cases tokensOfWords later <;> rfl
  | opening _ ih => rw [List.cons_append, tokensOfWords_of_ofWord? rfl, ih, compose]
  | closing _ ih => rw [List.cons_append, tokensOfWords_of_ofWord? rfl, ih, compose]
  | connective op _ ih =>
      rw [List.cons_append, tokensOfWords_of_ofWord? (Token.ofWord?_word op), ih, compose]
  | condition c identifier notConnective spelled _ ih =>
      rw [List.cons_append, List.cons_append, List.cons_append,
        tokensOfWords_of_literalWord (isIdentifier_iff.2 identifier)
        (ofWord?_eq_none_iff.2 notConnective) ((literalWord_eq_ok_iff spelled.isWord).2 spelled),
        ih, compose]

/-- Words are read as the tokens that they spell. -/
theorem Spelling.tokensOfWords_eq {words : List Word} {tokens : List PlacedToken}
    (h : Spelling words tokens) : tokensOfWords words = .ok tokens := by
  have whole := h.tokensOfWords_append []
  rw [List.append_nil, tokensOfWords] at whole
  rw [whole, Except.map, List.append_nil]

/-- What spells tokens are words. -/
theorem Spelling.isWord {words : List Word} {tokens : List PlacedToken}
    (h : Spelling words tokens) : ∀ w ∈ words, IsWord w.text := by
  induction h with
  | nil => simp
  | opening later ih => exact List.forall_mem_cons.2 ⟨.inl ⟨'(', rfl, rfl⟩, ih⟩
  | closing later ih => exact List.forall_mem_cons.2 ⟨.inl ⟨')', rfl, rfl⟩, ih⟩
  | connective op later ih =>
      exact List.forall_mem_cons.2 ⟨.inr ⟨word_ne_nil op, isWordChar_of_mem_word op⟩, ih⟩
  | condition c identifier notConnective spelled later ih =>
      simp only [List.forall_mem_cons]
      exact ⟨identifier.isWord, .inr ⟨symbol_ne_nil _, isWordChar_of_mem_symbol _⟩,
        spelled.isWord, ih⟩

/-- A condition that words spell is one that rule text can express. -/
theorem Spelling.expressible {words : List Word} {tokens : List PlacedToken}
    (h : Spelling words tokens) :
    ∀ c, .condition c ∈ tokens.map (·.token) → c.expressible = true := by
  induction h with
  | nil => simp
  | opening later ih => simpa using ih
  | closing later ih => simpa using ih
  | connective op later ih => simpa using ih
  | condition c identifier notConnective spelled later ih =>
      intro c' hc'
      rcases List.mem_cons.1 hc' with same | hc'
      · cases same
        refine Condition.expressible_iff.2
          ⟨isIdentifier_iff.2 identifier, ofWord?_eq_none_iff.2 notConnective, ?_⟩
        intro s hs
        rw [hs] at spelled
        exact spelled.isQuotable
      · exact ih c' hc'

theorem spelling_of_tokenize {text : String} {tokens : List PlacedToken}
    (h : tokenize text = .ok tokens) : Spelling (words text.toList) tokens :=
  spelling_of_tokensOfWords (fun _ => isWord_of_mem_wordsFrom) h

/-- The conditions among the tokens of a text can be expressed. -/
theorem expressible_of_tokenize {text : String} {placed : List PlacedToken}
    (h : tokenize text = .ok placed) :
    ∀ c, .condition c ∈ placed.map (·.token) → c.expressible = true :=
  (spelling_of_tokenize h).expressible

/-- A text is read as tokens exactly when it is a layout of words that spell them, and
the offset of a token is that of its first word. -/
theorem tokenize_eq_ok_iff (text : String) (tokens : List PlacedToken) :
    tokenize text = .ok tokens ↔
      ∃ words : List Word, LaidOut 0 text.toList words ∧ Spelling words tokens := by
  constructor
  · intro h
    exact ⟨words text.toList, laidOut_wordsFrom 0 text.toList, spelling_of_tokenize h⟩
  · rintro ⟨found, laid, spelling⟩
    rw [tokenize, words_eq_iff.2 ⟨laid, spelling.isWord⟩, spelling.tokensOfWords_eq]

end Eligibility
