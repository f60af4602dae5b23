import Eligibility.Proofs.Places

/-!
# Words that cannot be read

A text that cannot be read as tokens is blamed on one of its words. The words in front of the
condition that this word belongs to spell tokens, and the condition itself shows what is wrong
with the word (`Faulty`): it cannot stand where it stands, or it is the field of a condition
which the end of the text cuts off.

Only the words up to the blamed one count for that, and a word is known where it ends. So no
text mends the fault that goes on behind the word, and does not carry it on. A condition that
has been cut off is the one exception: its field is blamed, and behind a field there is always
something that completes it.
-/

namespace Eligibility

/-! ## Conditions that cannot be read -/

/-- A word that starts a condition: an identifier that spells no connective. -/
def IsField (text : List Char) : Prop :=
  IsIdentifier text ∧ ∀ op : Connective, text ≠ op.word.toList

/-- The words begin a condition and leave the rest of it to those that follow. -/
inductive Begun : List Word → Prop where
  | nothing : Begun []
  | field {field : Word} (starts : IsField field.text) : Begun [field]
  | comparator {field second : Word} (comparator : Comparator) (starts : IsField field.text)
      (symbol : second.text = comparator.symbol.toList) : Begun [field, second]

/-- The words begin with a condition, or with what stands in the place of one, and the error
tells what is wrong with it. -/
inductive Faulty : List Word → LexError → Prop where
  /-- The words end within the condition. -/
  | cutOff {field : Word} {later : List Word} (begun : Begun (field :: later)) :
      Faulty (field :: later) ⟨.incomplete, field⟩
  /-- The first word starts no token. -/
  | unrecognized {first : Word} {later : List Word}
      (notParenthesis : ¬IsParenthesisWord first.text)
      (notIdentifier : ¬IsIdentifier first.text) :
      Faulty (first :: later) ⟨.unrecognized, first⟩
  | notComparator {field second : Word} {later : List Word} (starts : IsField field.text)
      (noSymbol : ∀ comparator : Comparator, second.text ≠ comparator.symbol.toList) :
      Faulty (field :: second :: later) ⟨.notComparator, second⟩
  /-- The third word spells no value. -/
  | badLiteral {field second third : Word} {later : List Word} {fault : WordFault}
      (comparator : Comparator) (starts : IsField field.text)
      (symbol : second.text = comparator.symbol.toList)
      (unread : literalWord third.text = .error fault) :
      Faulty (field :: second :: third :: later) ⟨fault, third⟩

theorem IsField.ofList_ne_word {text : List Char} (h : IsField text) (op : Connective) :
    String.ofList text ≠ op.word := by
  intro same
  exact h.2 op (by rw [← same, String.toList_ofList])

theorem isField_iff {text : List Char} :
    IsField text ↔ Token.ofWord? text = none ∧ isIdentifier text = true := by
  constructor
  · intro starts
    have identifier := isIdentifier_iff.2 starts.1
    have notConnective := ofWord?_eq_none_iff.2 starts.ofList_ne_word
    rw [← String.toList_ofList (l := text)] at identifier ⊢
    exact ⟨Token.ofWord?_eq_none identifier notConnective, identifier⟩
  · rintro ⟨alone, identifier⟩
    refine ⟨isIdentifier_iff.1 identifier, ?_⟩
    rintro op rfl
    rw [Token.ofWord?_word] at alone
    cases alone

theorem isIdentifier_word (op : Connective) : IsIdentifier op.word.toList := by
  rw [← isIdentifier_iff]
  cases op <;> decide

/-- A word that is neither a parenthesis nor an identifier is no token. -/
theorem ofWord?_eq_none_of_not {text : List Char} (notParenthesis : ¬IsParenthesisWord text)
    (notIdentifier : ¬IsIdentifier text) : Token.ofWord? text = none := by
  rw [Option.eq_none_iff_forall_ne_some]
  intro token h
  rcases Token.ofWord?_eq_some h with ⟨rfl, -⟩ | ⟨rfl, -⟩ | ⟨op, rfl, -⟩
  · exact notParenthesis (.inl rfl)
  · exact notParenthesis (.inr rfl)
  · exact notIdentifier (isIdentifier_word op)

theorem not_isParenthesisWord_of_ofWord? {text : List Char} (h : Token.ofWord? text = none) :
    ¬IsParenthesisWord text := by
  rintro (rfl | rfl)
  all_goals cases h

theorem ofSymbol?_ofList_eq_none_iff {text : List Char} :
    Comparator.ofSymbol? (String.ofList text) = none ↔
      ∀ comparator : Comparator, text ≠ comparator.symbol.toList := by
  rw [Option.eq_none_iff_forall_ne_some]
  exact forall_congr' fun comparator => not_congr ofSymbol?_ofList_eq_some_iff

theorem literalWord_ne_incomplete (text : List Char) :
    literalWord text ≠ .error .incomplete := by
  cases hinteger : integerWord? text with
  | none => cases hquoted : quotedWord? text <;> simp [literalWord, hinteger, hquoted]
  | some n => cases hn : int64? n <;> simp [literalWord, hinteger, hn]

/-- Words that begin with such a condition are refused with its error. -/
theorem Faulty.tokensOfWords_eq {words : List Word} {e : LexError} (h : Faulty words e) :
    tokensOfWords words = .error e := by
  rw [tokensOfWords.eq_def]
  cases h with
  | cutOff begun =>
      cases begun with
      | field starts =>
          obtain ⟨alone, identifier⟩ := isField_iff.1 starts
          simp only [alone, identifier, if_true]
      | comparator comparator starts symbol =>
          obtain ⟨alone, identifier⟩ := isField_iff.1 starts
          simp only [alone, identifier, if_true, ofSymbol?_ofList_eq_some_iff.2 symbol]
  | unrecognized notParenthesis notIdentifier =>
      have identifier := Bool.eq_false_iff.2 (mt isIdentifier_iff.1 notIdentifier)
      simp only [ofWord?_eq_none_of_not notParenthesis notIdentifier, identifier,
        Bool.false_eq_true, if_false]
  | notComparator starts noSymbol =>
      obtain ⟨alone, identifier⟩ := isField_iff.1 starts
      simp only [alone, identifier, if_true, ofSymbol?_ofList_eq_none_iff.2 noSymbol]
  | badLiteral comparator starts symbol unread =>
      obtain ⟨alone, identifier⟩ := isField_iff.1 starts
      simp only [alone, identifier, if_true, ofSymbol?_ofList_eq_some_iff.2 symbol, unread]

/-- Words that cannot be read are read up to a condition that is at fault. -/
theorem exists_faulty_of_tokensOfWords {words : List Word} {e : LexError}
    (h : tokensOfWords words = .error e) :
    ∃ (done : List Word) (tokens : List PlacedToken) (failing : List Word),
      words = done ++ failing ∧ tokensOfWords done = .ok tokens ∧ Faulty failing e := by
  fun_induction tokensOfWords words with
  | case1 => cases h
  | case2 first rest token alone ih =>
      obtain ⟨done, tokens, failing, rfl, hdone, faulty⟩ := ih (Except.map_eq_error_iff.1 h)
      refine ⟨first :: done, ⟨token, first.position⟩ :: tokens, failing, rfl, ?_, faulty⟩
      rw [tokensOfWords_of_ofWord? alone, hdone]
      rfl
  | case3 first alone identifier =>
      cases h
      exact ⟨[], [], _, rfl, rfl, .cutOff (.field (isField_iff.2 ⟨alone, identifier⟩))⟩
  | case4 first alone identifier second rest noSymbol =>
      cases h
      exact ⟨[], [], _, rfl, rfl, .notComparator (isField_iff.2 ⟨alone, identifier⟩)
        (ofSymbol?_ofList_eq_none_iff.1 noSymbol)⟩
  | case5 first alone identifier second comparator hcomparator =>
      cases h
      exact ⟨[], [], _, rfl, rfl, .cutOff (.comparator comparator
        (isField_iff.2 ⟨alone, identifier⟩) (ofSymbol?_ofList_eq_some_iff.1 hcomparator))⟩
  | case6 first alone identifier second comparator hcomparator third rest fault unread =>
      cases h
      exact ⟨[], [], _, rfl, rfl, .badLiteral comparator (isField_iff.2 ⟨alone, identifier⟩)
        (ofSymbol?_ofList_eq_some_iff.1 hcomparator) unread⟩
  | case7 first alone identifier second comparator hcomparator third rest value literal ih =>
      obtain ⟨done, tokens, failing, rfl, hdone, faulty⟩ := ih (Except.map_eq_error_iff.1 h)
      refine ⟨first :: second :: third :: done,
        ⟨.condition ⟨String.ofList first.text, comparator, value⟩, first.position⟩ :: tokens,
        failing, rfl, ?_, faulty⟩
      rw [tokensOfWords.eq_def]
      simp only [alone, identifier, if_true, hcomparator, literal, hdone]
      rfl
  | case8 first rest alone notIdentifier =>
      cases h
      exact ⟨[], [], _, rfl, rfl, .unrecognized (not_isParenthesisWord_of_ofWord? alone)
        fun identifier => notIdentifier (isIdentifier_iff.2 identifier)⟩

/-- The word that is blamed stands behind the beginning of a condition. Either it is at
fault itself, whatever follows, or it is the field of a condition that has been cut off. -/
theorem Faulty.exists_begun {failing : List Word} {e : LexError} (h : Faulty failing e) :
    ∃ read later : List Word, failing = read ++ e.word :: later ∧ Begun read ∧
      ((e.fault ≠ .incomplete ∧ ∀ later', Faulty (read ++ e.word :: later') e) ∨
        (e.fault = .incomplete ∧ read = [] ∧ Begun (e.word :: later))) := by
  cases h with
  | @cutOff field later begun =>
      exact ⟨[], later, rfl, .nothing, .inr ⟨rfl, rfl, begun⟩⟩
  | @unrecognized first later notParenthesis notIdentifier =>
      refine ⟨[], later, rfl, .nothing, .inl ⟨nofun, fun later' => ?_⟩⟩
      exact .unrecognized notParenthesis notIdentifier
  | @notComparator field second later starts noSymbol =>
      refine ⟨[field], later, rfl, .field starts, .inl ⟨nofun, fun later' => ?_⟩⟩
      exact .notComparator starts noSymbol
  | @badLiteral field second third later fault comparator starts symbol unread =>
      refine ⟨[field, second], later, rfl, .comparator comparator starts symbol,
        .inl ⟨?_, fun later' => .badLiteral comparator starts symbol unread⟩⟩
      rintro rfl
      exact literalWord_ne_incomplete third.text unread

/-! ## What mends a text -/

/-- The text goes on to one that can be read, and its last word ends where it ends. -/
def Mendable (text : List Char) : Prop :=
  ∃ (rest : List Char) (tokens : List PlacedToken), BreaksWord rest ∧
    tokenize (String.ofList (text ++ rest)) = .ok tokens

theorem spelledBy_zero : (Value.integer 0).SpelledBy ['0'] :=
  .integer (List.cons_ne_nil _ _) (List.forall_mem_singleton.2 rfl) rfl

/-- A condition can start with this field. -/
theorem IsField.spelling {field second third : Word} {comparator : Comparator} {v : Value}
    (starts : IsField field.text) (symbol : second.text = comparator.symbol.toList)
    (spelled : v.SpelledBy third.text) :
    Spelling [field, second, third]
      [⟨.condition ⟨String.ofList field.text, comparator, v⟩, field.position⟩] :=
  Spelling.nil.condition_of_text starts.1 starts.ofList_ne_word symbol spelled

theorem wordsFrom_space_append {text rest : List Char} (word : IsWord text)
    (breaks : BreaksWord rest) (position : Nat) :
    wordsFrom position (' ' :: (text ++ rest)) =
      ⟨text, position + 1⟩ :: wordsFrom (position + 1 + width text) rest := by
  rw [wordsFrom_blank (by decide), word.wordsFrom_append (.inr breaks)]
  rfl

/-- There is always a way to complete a condition. -/
theorem Begun.exists_spelling {read : List Word} (h : Begun read) (position : Nat) :
    ∃ rest, BreaksWord rest ∧ ∃ tokens, Spelling (read ++ wordsFrom position rest) tokens := by
  have breaksSpace : ∀ text, BreaksWord (' ' :: text) := breaksWord_cons (by decide)
  have zero (position : Nat) : wordsFrom position [' ', '0'] = [⟨['0'], position + 1⟩] := by
    have read := wordsFrom_space_append spelledBy_zero.isWord breaksWord_nil position
    rwa [wordsFrom_nil] at read
  cases h with
  | nothing =>
      refine ⟨[], breaksWord_nil, [], ?_⟩
      rw [wordsFrom_nil]
      exact .nil
  | field starts =>
      have equal : IsWord Comparator.eq.symbol.toList :=
        .inr ⟨symbol_ne_nil _, isWordChar_of_mem_symbol _⟩
      refine ⟨' ' :: (Comparator.eq.symbol.toList ++ [' ', '0']), breaksSpace _, ?_⟩
      rw [wordsFrom_space_append equal (breaksSpace _), zero]
      exact ⟨_, starts.spelling rfl spelledBy_zero⟩
  | comparator comparator starts symbol =>
      refine ⟨[' ', '0'], breaksSpace _, ?_⟩
      rw [zero]
      exact ⟨_, starts.spelling symbol spelledBy_zero⟩

/-- A text can be mended if its words spell tokens up to the beginning of a condition. -/
theorem mendable_of_spelling {text : List Char} {done read : List Word}
    {tokens : List PlacedToken} (hwords : words text = done ++ read)
    (spelling : Spelling done tokens) (begun : Begun read) : Mendable text := by
  obtain ⟨rest, breaks, later, spelled⟩ := begun.exists_spelling (width text)
  refine ⟨rest, tokens ++ later, breaks, ?_⟩
  rw [tokenize, String.toList_ofList, words, wordsFrom_append fun _ _ _ => breaks, Nat.zero_add,
    ← words, hwords, List.append_assoc, spelling.tokensOfWords_append, spelled.tokensOfWords_eq]
  rfl

/-- What stands behind the field of a condition that the end of the text cuts off: blank
characters, and a comparator or none. -/
def EndsCondition (text : List Char) : Prop :=
  (∀ c ∈ text, isBlank c = true) ∨
    ∃ (comparator : Comparator) (gap gap' : List Char),
      text = gap ++ (comparator.symbol.toList ++ gap') ∧
      (∀ c ∈ gap, isBlank c = true) ∧ ∀ c ∈ gap', isBlank c = true

theorem Begun.isField {field : Word} {later : List Word} (h : Begun (field :: later)) :
    IsField field.text := by
  cases h with
  | field starts => exact starts
  | comparator comparator starts symbol => exact starts

theorem Begun.endsCondition {field : Word} {later : List Word} {position : Nat}
    {text : List Char} (h : Begun (field :: later)) (hlater : wordsFrom position text = later) :
    EndsCondition text := by
  cases h with
  | field starts => exact .inl (isBlank_of_wordsFrom_eq_nil hlater)
  | comparator comparator starts symbol =>
      obtain ⟨gap, gap', rfl, blank, -, -, none⟩ := exists_of_wordsFrom_eq_cons hlater
      rw [symbol]
      exact .inr ⟨comparator, gap, gap', rfl, blank, isBlank_of_wordsFrom_eq_nil none⟩

/-- A text that cannot be read is blamed on one of its words, which stands in it, whole, at
the place that the error tells. The words before the condition which the word belongs to
spell tokens, and up to the word itself the text can be mended. Behind the word it cannot:
whatever follows that does not carry on the word, the error is the same. But if the condition
is incomplete, the word is its field, the text ends behind the field or behind a comparator,
and it can still be mended behind the field. -/
theorem exists_isWholeWord_of_tokenize_eq_error {text : String} {e : LexError}
    (h : tokenize text = .error e) :
    text.toUTF8.extract e.word.position (e.word.position + width e.word.text) =
        (String.ofList e.word.text).toUTF8 ∧
      ∃ before after : List Char,
        text.toList = before ++ (e.word.text ++ after) ∧
        e.word.position = width before ∧
        IsWholeWord before e.word.text after ∧
        (∃ (done failing : List Word) (tokens : List PlacedToken),
          words text.toList = done ++ failing ∧ Spelling done tokens ∧ Faulty failing e) ∧
        Mendable before ∧
        (e.fault ≠ .incomplete → ∀ rest, BreaksWord rest →
          tokenize (String.ofList (before ++ (e.word.text ++ rest))) = .error e) ∧
        (e.fault = .incomplete → IsField e.word.text ∧ EndsCondition after ∧
          Mendable (before ++ e.word.text)) := by
  obtain ⟨done, tokens, failing, hwords, hdone, faulty⟩ := exists_faulty_of_tokensOfWords h
  obtain ⟨read, later, rfl, begun, blame⟩ := faulty.exists_begun
  have areWords : ∀ w ∈ words text.toList, IsWord w.text := fun _ => isWord_of_mem_wordsFrom
  rw [hwords] at areWords
  have spelling : Spelling done tokens :=
    spelling_of_tokensOfWords (fun w hw => areWords w (List.mem_append_left _ hw)) hdone
  have split : words text.toList = (done ++ read) ++ e.word :: later := by
    rw [hwords, List.append_assoc]
  obtain ⟨before, after, htext, hposition, whole, hbefore, hafter⟩ :=
    exists_of_wordsFrom_eq_append split
  rw [Nat.zero_add] at hposition
  -- the word is found again in front of any other rest, behind the same words
  have found {rest : List Char} (breaks : BreaksWord rest) :
      words (before ++ (e.word.text ++ rest)) = done ++
        (read ++ e.word :: wordsFrom (e.word.position + width e.word.text) rest) := by
    rw [words, whole.wordsFrom_append breaks, hbefore, Nat.zero_add, ← hposition,
      List.append_assoc]
  refine ⟨?_, before, after, htext, hposition, whole,
    ⟨done, read ++ e.word :: later, tokens, hwords, spelling, faulty⟩,
    mendable_of_spelling hbefore spelling begun, ?_, ?_⟩
  · rw [← String.ofList_toList (s := text), htext, hposition]
    exact extract_toUTF8 before e.word.text after
  · intro complete rest breaks
    rcases blame with ⟨-, always⟩ | ⟨cut, -⟩
    · rw [tokenize, String.toList_ofList, found breaks, spelling.tokensOfWords_append,
        (always _).tokensOfWords_eq]
      rfl
    · exact absurd cut complete
  · intro cut
    rcases blame with ⟨complete, -⟩ | ⟨-, rfl, cutOff⟩
    · exact absurd cut complete
    · refine ⟨cutOff.isField, cutOff.endsCondition hafter, ?_⟩
      have upToField := found breaksWord_nil
      rw [List.append_nil, wordsFrom_nil] at upToField
      exact mendable_of_spelling upToField spelling (.field cutOff.isField)

/-- A word that is no comparator, behind characters of several bytes. -/
def unreadable : String :=
  "a = 'é'\u3000AND\u3000b ≥ 3"

/-- A condition that is cut off behind its comparator. -/
def unfinished : String :=
  "(a > 1) OR b < "

theorem exists_isWholeWord_of_tokenize_eq_error_unreadable :
    (tokenize unreadable = .error ⟨.notComparator, ⟨['≥'], 19⟩⟩ ∧
      unreadable.toUTF8.extract 19 (19 + width ['≥']) = (String.ofList ['≥']).toUTF8 ∧
      ∃ before after : List Char, unreadable.toList = before ++ (['≥'] ++ after) ∧
        19 = width before ∧ Mendable before ∧
        ∀ rest, BreaksWord rest → tokenize (String.ofList (before ++ (['≥'] ++ rest))) =
          .error ⟨.notComparator, ⟨['≥'], 19⟩⟩) ∧
      tokenize unfinished = .error ⟨.incomplete, ⟨['b'], 11⟩⟩ ∧
      ∃ before after : List Char, unfinished.toList = before ++ (['b'] ++ after) ∧
        11 = width before ∧ EndsCondition after ∧ Mendable (before ++ ['b']) := by
  have unread : tokenize unreadable = .error ⟨.notComparator, ⟨['≥'], 19⟩⟩ := by decide +kernel
  have cut : tokenize unfinished = .error ⟨.incomplete, ⟨['b'], 11⟩⟩ := by decide +kernel
  constructor
  · obtain ⟨bytes, before, after, htext, hposition, -, -, mendable, always, -⟩ :=
      exists_isWholeWord_of_tokenize_eq_error unread
    exact ⟨unread, bytes, before, after, htext, hposition, mendable, always nofun⟩
  · obtain ⟨-, before, after, htext, hposition, -, -, -, -, cutOff⟩ :=
      exists_isWholeWord_of_tokenize_eq_error cut
    obtain ⟨-, ends, mendable⟩ := cutOff rfl
    exact ⟨cut, before, after, htext, hposition, ends, mendable⟩

end Eligibility
