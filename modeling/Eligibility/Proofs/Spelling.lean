import Eligibility.Proofs.Outcome
import Eligibility.Token

/-!
# How words and tokens are spelled

What a text must look like for its words and its tokens to be known without
reading all of it: a word ends where no word character follows (`BreaksWord`), and
the three words of a condition that rule text can express are read as this
condition whatever comes after them.
-/

namespace Eligibility

/-! ## Words -/

/-- A text that does not carry on the word in front of it. -/
def BreaksWord (text : List Char) : Prop :=
  ∀ c rest, text = c :: rest → isWordChar c = false

theorem breaksWord_nil : BreaksWord [] := by
  intro c rest h
  cases h

theorem breaksWord_cons {c : Char} (h : isWordChar c = false) (text : List Char) :
    BreaksWord (c :: text) := by
  intro c' rest h'
  cases h'
  exact h

theorem takeWhile_eq_nil_of_breaksWord {text : List Char} (breaks : BreaksWord text) :
    text.takeWhile isWordChar = [] := by
  cases text with
  | nil => rfl
  | cons c cs =>
      rw [List.takeWhile_cons, breaks c cs rfl]
      rfl

theorem dropWhile_eq_self_of_breaksWord {text : List Char} (breaks : BreaksWord text) :
    text.dropWhile isWordChar = text := by
  cases text with
  | nil => rfl
  | cons c cs =>
      rw [List.dropWhile_cons, breaks c cs rfl]
      rfl

/-- A run of word characters is a word where the text after it breaks words. -/
theorem wordsFrom_word {text rest : List Char} (ne : text ≠ [])
    (chars : ∀ c ∈ text, isWordChar c = true) (breaks : BreaksWord rest) (position : Nat) :
    wordsFrom position (text ++ rest) =
      ⟨text, position⟩ :: wordsFrom (position + width text) rest := by
  cases text with
  | nil => exact absurd rfl ne
  | cons c cs =>
      have hcs : ∀ a ∈ cs, isWordChar a = true := by
        intro a ha
        exact chars a (List.mem_cons_of_mem c ha)
      rw [List.cons_append, wordsFrom_wordChar (chars c List.mem_cons_self),
        List.takeWhile_append_of_pos hcs, List.dropWhile_append_of_pos hcs,
        takeWhile_eq_nil_of_breaksWord breaks, dropWhile_eq_self_of_breaksWord breaks,
        List.append_nil]

/-- What the words of a text are: a parenthesis, or a run of word characters. -/
def IsWord (text : List Char) : Prop :=
  (∃ c, isParenthesis c = true ∧ text = [c]) ∨
    (text ≠ [] ∧ ∀ c ∈ text, isWordChar c = true)

/-- A character that is neither blank nor a parenthesis begins a run of word characters. -/
theorem isWordChar_of_mem_run {c : Char} {cs : List Char} (notBlank : ¬isBlank c = true)
    (notParenthesis : ¬isParenthesis c = true) :
    ∀ a ∈ c :: cs.takeWhile isWordChar, isWordChar a = true := by
  refine List.forall_mem_cons.2 ⟨?_, List.all_eq_true.1 List.all_takeWhile⟩
  simp [isWordChar, notBlank, notParenthesis]

theorem isWord_of_mem_wordsFrom {position : Nat} {text : List Char} {word : Word}
    (h : word ∈ wordsFrom position text) : IsWord word.text := by
  fun_induction wordsFrom position text with
  | case1 position => simp at h
  | case2 position c cs blank ih => exact ih h
  | case3 position c cs notBlank parenthesis ih =>
      rcases List.mem_cons.1 h with rfl | h
      · exact .inl ⟨c, parenthesis, rfl⟩
      · exact ih h
  | case4 position c cs notBlank notParenthesis text ih =>
      rcases List.mem_cons.1 h with rfl | h
      · exact .inr ⟨List.cons_ne_nil _ _, isWordChar_of_mem_run notBlank notParenthesis⟩
      · exact ih h

/-! ## Characters of words -/

theorem isBlank_eq_false_of_graphic {c : Char} (low : 0x20 < c.toNat) (high : c.toNat < 0x7F) :
    isBlank c = false := by
  simp only [isBlank, blankRanges, List.any_cons, List.any_nil, Bool.or_false,
    Bool.or_eq_false_iff, Bool.and_eq_false_iff, decide_eq_false_iff_not]
  omega

theorem isWordChar_of_graphic {c : Char} (low : 0x20 < c.toNat) (high : c.toNat < 0x7F)
    (notParenthesis : isParenthesis c = false) : isWordChar c = true := by
  rw [isWordChar, notParenthesis, isBlank_eq_false_of_graphic low high]
  rfl

theorem toNat_of_isDigit {c : Char} (h : c.isDigit = true) :
    0x30 ≤ c.toNat ∧ c.toNat ≤ 0x39 :=
  Char.isDigit_iff_toNat.1 h

theorem toNat_of_isAlpha {c : Char} (h : c.isAlpha = true) :
    0x41 ≤ c.toNat ∧ c.toNat ≤ 0x7A := by
  rcases Bool.or_eq_true_iff.1 h with upper | lower
  · obtain ⟨low, high⟩ : 0x41 ≤ c.toNat ∧ c.toNat ≤ 0x5A := of_decide_eq_true upper
    exact ⟨low, Nat.le_trans high (by decide)⟩
  · obtain ⟨low, high⟩ := Bool.and_eq_true_iff.1 lower
    have low : 0x61 ≤ c.toNat := of_decide_eq_true low
    exact ⟨Nat.le_trans (by decide) low, of_decide_eq_true high⟩

theorem isParenthesis_eq_false_of_toNat {c : Char} (h : 0x29 < c.toNat) :
    isParenthesis c = false := by
  simp only [isParenthesis, Bool.or_eq_false_iff, decide_eq_false_iff_not]
  constructor
  · rintro rfl
    contradiction
  · rintro rfl
    contradiction

theorem isWordChar_of_isDigit {c : Char} (h : c.isDigit = true) : isWordChar c = true := by
  obtain ⟨low, high⟩ := toNat_of_isDigit h
  exact isWordChar_of_graphic (by omega) (by omega)
    (isParenthesis_eq_false_of_toNat (by omega))

theorem isWordChar_of_isIdentifierRest {c : Char} (h : isIdentifierRest c = true) :
    isWordChar c = true := by
  simp only [isIdentifierRest, Char.isAlphanum, Bool.or_eq_true, decide_eq_true_eq] at h
  rcases h with (alpha | digit) | rfl
  · obtain ⟨low, high⟩ := toNat_of_isAlpha alpha
    exact isWordChar_of_graphic (by omega) (by omega)
      (isParenthesis_eq_false_of_toNat (by omega))
  · exact isWordChar_of_isDigit digit
  · decide

theorem isIdentifierRest_of_isIdentifierStart {c : Char} (h : isIdentifierStart c = true) :
    isIdentifierRest c = true := by
  simp only [isIdentifierStart, isIdentifierRest, Char.isAlphanum, Bool.or_eq_true] at h ⊢
  rcases h with alpha | underscore
  · exact .inl (.inl alpha)
  · exact .inr underscore

theorem isIdentifierRest_of_mem {text : List Char} (h : isIdentifier text = true) :
    ∀ c ∈ text, isIdentifierRest c = true := by
  cases text with
  | nil => contradiction
  | cons c cs =>
      simp only [isIdentifier, Bool.and_eq_true] at h
      intro a ha
      rcases List.mem_cons.1 ha with rfl | ha
      · exact isIdentifierRest_of_isIdentifierStart h.1
      · exact List.all_eq_true.1 h.2 a ha

/-! ## Literals -/

theorem isNumeral_toDigits (n : Nat) : isNumeral (Nat.toDigits 10 n) = true := by
  have ne : (Nat.toDigits 10 n).isEmpty = false := by
    rw [List.isEmpty_eq_false_iff]
    exact Nat.toDigits_ne_nil
  rw [isNumeral, ne, Bool.not_false, Bool.true_and, List.all_eq_true]
  intro c hc
  exact Nat.isDigit_of_mem_toDigits (by decide) (by decide) hc

/-- The word of an integer is its digits, behind the sign if it is negative. -/
theorem integerWord?_repr (n : Int) : integerWord? (toString n).toList = some n := by
  rw [Int.toString_eq_repr, Int.repr_eq_if]
  split
  · next nonneg =>
    have head : ∀ digits, Nat.toDigits 10 n.toNat ≠ '-' :: digits := by
      intro digits h
      have digit := Nat.isDigit_of_mem_toDigits (by decide) (by decide)
        (h ▸ List.mem_cons_self : '-' ∈ Nat.toDigits 10 n.toNat)
      contradiction
    rw [Nat.toList_repr, integerWord?, if_pos (isNumeral_toDigits n.toNat),
      Nat.ofDigitChars_ten_toDigits, Int.toNat_of_nonneg nonneg]
    exact head
  · next negative =>
    rw [String.toList_append, Nat.toList_repr]
    change integerWord? ('-' :: Nat.toDigits 10 (-n).toNat) = some n
    rw [integerWord?, if_pos (isNumeral_toDigits (-n).toNat), Nat.ofDigitChars_ten_toDigits,
      Int.toNat_of_nonneg (by omega), Int.neg_neg]

/-- The word of a text is none of an integer. -/
theorem integerWord?_quote (text : List Char) : integerWord? ('\'' :: text) = none := by
  rw [integerWord?]
  · exact if_neg (by simp [isNumeral])
  · intro digits h
    cases h

theorem quotedWord?_quote {text : List Char} (h : ∀ c ∈ text, c ≠ '\'') :
    quotedWord? ('\'' :: (text ++ ['\''])) = some text := by
  have plain : text.all (· != '\'') = true := by
    rw [List.all_eq_true]
    intro c hc
    exact bne_iff_ne.2 (h c hc)
  simp [quotedWord?, plain]

theorem isQuotable_of_quotedWord? {text inner : List Char} (word : IsWord text)
    (h : quotedWord? text = some inner) : ∀ c ∈ inner, isQuotable c = true := by
  rw [quotedWord?.eq_def] at h
  split at h
  · next rest =>
    split at h
    · next closed =>
      cases h
      simp only [Bool.and_eq_true, List.all_eq_true, bne_iff_ne] at closed
      have chars : ∀ c ∈ '\'' :: rest, isWordChar c = true := by
        rcases word with ⟨c, parenthesis, single⟩ | ⟨_, chars⟩
        · cases single
          contradiction
        · exact chars
      intro c hc
      have hchar := chars c (List.mem_cons_of_mem _ (List.dropLast_subset rest hc))
      rw [isQuotable, hchar, Bool.true_and, bne_iff_ne]
      exact closed.2 c hc
    · contradiction
  · contradiction

theorem toList_literal_text (s : String) :
    (Value.text s).literal.toList = '\'' :: (s.toList ++ ['\'']) := by
  rw [Value.literal, String.toList_append, String.toList_append]
  rfl

/-- The literal of a value is read as this value. -/
theorem literalWord_literal {v : Value}
    (h : ∀ s, v = .text s → ∀ c ∈ s.toList, isQuotable c = true) :
    literalWord v.literal.toList = .ok v := by
  cases v with
  | integer n => simp only [literalWord, Value.literal, integerWord?_repr, int64?_toInt]
  | text s =>
      have noQuote : ∀ c ∈ s.toList, c ≠ '\'' := by
        intro c hc
        have quotable := h s rfl c hc
        simp only [isQuotable, Bool.and_eq_true, bne_iff_ne] at quotable
        exact quotable.2
      rw [toList_literal_text]
      simp only [literalWord, integerWord?_quote, quotedWord?_quote noQuote,
        String.ofList_toList]

theorem isWordChar_of_mem_repr {n : Int} : ∀ c ∈ (toString n).toList, isWordChar c = true := by
  have digits : ∀ m : Nat, ∀ c ∈ Nat.toDigits 10 m, isWordChar c = true := by
    intro m c hc
    exact isWordChar_of_isDigit (Nat.isDigit_of_mem_toDigits (by decide) (by decide) hc)
  rw [Int.toString_eq_repr, Int.repr_eq_if]
  split
  · rw [Nat.toList_repr]
    exact digits n.toNat
  · rw [String.toList_append, Nat.toList_repr]
    intro c hc
    rcases List.mem_append.1 hc with sign | digit
    · obtain rfl := List.mem_singleton.1 sign
      decide
    · exact digits _ c digit

/-- The literal of a value is one word. -/
theorem isWordChar_of_mem_literal {v : Value}
    (h : ∀ s, v = .text s → ∀ c ∈ s.toList, isQuotable c = true) :
    ∀ c ∈ v.literal.toList, isWordChar c = true := by
  cases v with
  | integer n => exact isWordChar_of_mem_repr
  | text s =>
      rw [toList_literal_text]
      intro c hc
      rcases List.mem_cons.1 hc with rfl | hc
      · decide
      · rcases List.mem_append.1 hc with inner | quote
        · have quotable := h s rfl c inner
          simp only [isQuotable, Bool.and_eq_true] at quotable
          exact quotable.1
        · obtain rfl := List.mem_singleton.1 quote
          decide

theorem literal_ne_nil (v : Value) : v.literal.toList ≠ [] := by
  cases v with
  | integer n =>
      rw [Value.literal, Int.toString_eq_repr, Int.repr_eq_if]
      split
      · rw [Nat.toList_repr]
        exact Nat.toDigits_ne_nil
      · rw [String.toList_append]
        exact List.append_ne_nil_of_left_ne_nil (by decide) _
  | text s =>
      rw [toList_literal_text]
      exact List.cons_ne_nil _ _

/-! ## Conditions -/

theorem Condition.expressible_iff {c : Condition} :
    c.expressible = true ↔ isIdentifier c.field.toList = true ∧
      Connective.ofWord? c.field = none ∧
      ∀ s, c.value = .text s → ∀ a ∈ s.toList, isQuotable a = true := by
  obtain ⟨field, comparator, value⟩ := c
  cases value with
  | integer n => simp [expressible]
  | text s => simp [expressible, and_assoc]

/-- An identifier that spells no connective starts a condition. -/
theorem Token.ofWord?_eq_none {field : String} (identifier : isIdentifier field.toList = true)
    (notConnective : Connective.ofWord? field = none) : Token.ofWord? field.toList = none := by
  have chars := isIdentifierRest_of_mem identifier
  rw [Token.ofWord?.eq_def]
  split
  · next parenthesis =>
    rw [parenthesis] at chars
    exact absurd (chars '(' List.mem_cons_self) (by decide)
  · next parenthesis =>
    rw [parenthesis] at chars
    exact absurd (chars ')' List.mem_cons_self) (by decide)
  · rw [String.ofList_toList, notConnective]
    rfl

theorem Token.ofWord?_word (op : Connective) :
    Token.ofWord? op.word.toList = some (.connective op) := by
  cases op <;> rfl

theorem word_ne_nil (op : Connective) : op.word.toList ≠ [] := by
  cases op <;> decide

theorem isWordChar_of_mem_word (op : Connective) :
    ∀ c ∈ op.word.toList, isWordChar c = true := by
  rw [← List.all_eq_true]
  cases op <;> decide

theorem symbol_ne_nil (comparator : Comparator) : comparator.symbol.toList ≠ [] := by
  cases comparator <;> decide

theorem isWordChar_of_mem_symbol (comparator : Comparator) :
    ∀ c ∈ comparator.symbol.toList, isWordChar c = true := by
  rw [← List.all_eq_true]
  cases comparator <;> decide

/-- A word that spells a token alone is read as this token. -/
theorem tokensOfWords_of_ofWord? {first : Word} {token : Token}
    (h : Token.ofWord? first.text = some token) (rest : List Word) :
    tokensOfWords (first :: rest) =
      (tokensOfWords rest).map (⟨token, first.position⟩ :: ·) := by
  rw [tokensOfWords.eq_def]
  simp only [h]

/-- The three words of a condition are read as this condition, however the literal
spells its value. -/
theorem tokensOfWords_of_literalWord {c : Condition} {literal : List Char}
    (identifier : isIdentifier c.field.toList = true)
    (notConnective : Connective.ofWord? c.field = none)
    (read : literalWord literal = .ok c.value) (first second third : Nat) (rest : List Word) :
    tokensOfWords (⟨c.field.toList, first⟩ :: ⟨c.comparator.symbol.toList, second⟩ ::
        ⟨literal, third⟩ :: rest) =
      (tokensOfWords rest).map (⟨.condition c, first⟩ :: ·) := by
  rw [tokensOfWords.eq_def]
  simp only [Token.ofWord?_eq_none identifier notConnective, identifier, if_true,
    String.ofList_toList, Comparator.ofSymbol?_symbol, read]

theorem tokensOfWords_condition {c : Condition} (h : c.expressible = true)
    (first second third : Nat) (rest : List Word) :
    tokensOfWords (⟨c.field.toList, first⟩ :: ⟨c.comparator.symbol.toList, second⟩ ::
        ⟨c.value.literal.toList, third⟩ :: rest) =
      (tokensOfWords rest).map (⟨.condition c, first⟩ :: ·) := by
  obtain ⟨identifier, notConnective, quotable⟩ := Condition.expressible_iff.1 h
  exact tokensOfWords_of_literalWord identifier notConnective (literalWord_literal quotable)
    first second third rest

theorem toList_text (c : Condition) :
    c.text.toList = c.field.toList ++ ' ' :: (c.comparator.symbol.toList ++
      ' ' :: c.value.literal.toList) := by
  simp [Condition.text]

/-! ## Texts read as tokens -/

/-- Where no word goes on behind it, the text is read as the tokens, wherever it
stands and whatever follows. -/
def Spells (text : List Char) (tokens : List Token) : Prop :=
  ∀ (position : Nat) (rest : List Char), BreaksWord rest →
    ∃ placed : List PlacedToken, placed.map (·.token) = tokens ∧
      tokensOfWords (wordsFrom position (text ++ rest)) =
        (tokensOfWords (wordsFrom (position + width text) rest)).map (placed ++ ·)

namespace Spells

/-- The text of a condition is read as this condition. -/
theorem condition {c : Condition} (h : c.expressible = true) :
    Spells c.text.toList [.condition c] := by
  intro position rest breaks
  obtain ⟨identifier, notConnective, quotable⟩ := Condition.expressible_iff.1 h
  have fieldChars : ∀ a ∈ c.field.toList, isWordChar a = true := by
    intro a ha
    exact isWordChar_of_isIdentifierRest (isIdentifierRest_of_mem identifier a ha)
  have fieldNe : c.field.toList ≠ [] := by
    intro empty
    rw [empty] at identifier
    contradiction
  have blank : isBlank ' ' = true := by decide
  have breaksBlank : ∀ text, BreaksWord (' ' :: text) := breaksWord_cons (by decide)
  refine ⟨[⟨.condition c, position⟩], rfl, ?_⟩
  rw [toList_text, List.append_assoc, List.cons_append, List.append_assoc, List.cons_append,
    wordsFrom_word fieldNe fieldChars (breaksBlank _), wordsFrom_blank blank,
    wordsFrom_word (symbol_ne_nil _) (isWordChar_of_mem_symbol _) (breaksBlank _),
    wordsFrom_blank blank,
    wordsFrom_word (literal_ne_nil _) (isWordChar_of_mem_literal quotable) breaks,
    tokensOfWords_condition h]
  simp only [width_append, width_cons, Nat.add_assoc, List.singleton_append]

theorem connective (op : Connective) : Spells op.word.toList [.connective op] := by
  intro position rest breaks
  refine ⟨[⟨.connective op, position⟩], rfl, ?_⟩
  rw [wordsFrom_word (word_ne_nil op) (isWordChar_of_mem_word op) breaks,
    tokensOfWords_of_ofWord? (Token.ofWord?_word op)]
  simp only [List.singleton_append]

theorem blank {text : List Char} {tokens : List Token} (h : Spells text tokens) :
    Spells (' ' :: text) tokens := by
  intro position rest breaks
  obtain ⟨placed, htokens, read⟩ := h (position + Char.utf8Size ' ') rest breaks
  refine ⟨placed, htokens, ?_⟩
  rw [List.cons_append, wordsFrom_blank (by decide), read, width_cons, Nat.add_assoc]

/-- An opening parenthesis is a token of its own whatever follows. -/
theorem opening {text : List Char} {tokens : List Token} (h : Spells text tokens) :
    Spells ('(' :: text) (.opening :: tokens) := by
  intro position rest breaks
  obtain ⟨placed, rfl, read⟩ := h (position + Char.utf8Size '(') rest breaks
  refine ⟨⟨.opening, position⟩ :: placed, rfl, ?_⟩
  rw [List.cons_append, wordsFrom_parenthesis (by decide), tokensOfWords.eq_def]
  simp only [Token.ofWord?, read, width_cons, Nat.add_assoc]
  cases tokensOfWords (wordsFrom (position + (Char.utf8Size '(' + width text)) rest) <;> rfl

theorem closing : Spells [')'] [.closing] := by
  intro position rest _
  refine ⟨[⟨.closing, position⟩], rfl, ?_⟩
  rw [List.singleton_append, wordsFrom_parenthesis (by decide), tokensOfWords.eq_def]
  simp only [Token.ofWord?, width_cons, width_nil, Nat.add_zero, List.singleton_append]

/-- Two texts are read one after the other if the second does not carry on the last
word of the first. -/
theorem append {text text' : List Char} {tokens tokens' : List Token}
    (h : Spells text tokens) (h' : Spells text' tokens')
    (breaks : ∀ rest, BreaksWord (text' ++ rest)) :
    Spells (text ++ text') (tokens ++ tokens') := by
  intro position rest breaksRest
  obtain ⟨placed, rfl, read⟩ := h position (text' ++ rest) (breaks rest)
  obtain ⟨placed', rfl, read'⟩ := h' (position + width text) rest breaksRest
  refine ⟨placed ++ placed', List.map_append, ?_⟩
  rw [List.append_assoc, read, read', width_append, Nat.add_assoc]
  cases tokensOfWords (wordsFrom (position + (width text + width text')) rest) with
  | error e => rfl
  | ok later => simp only [Except.map, List.append_assoc]

/-- A text that is read as tokens has these tokens. -/
theorem tokenize {text : String} {tokens : List Token} (h : Spells text.toList tokens) :
    ∃ placed : List PlacedToken, placed.map (·.token) = tokens ∧
      Eligibility.tokenize text = .ok placed := by
  obtain ⟨placed, htokens, read⟩ := h 0 [] breaksWord_nil
  refine ⟨placed, htokens, ?_⟩
  rw [List.append_nil, wordsFrom_nil] at read
  rw [Eligibility.tokenize, words, read, tokensOfWords]
  simp only [Except.map, List.append_nil]

end Spells

end Eligibility
