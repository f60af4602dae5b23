import Eligibility.Proofs.Parentheses
import Eligibility.Proofs.Places

/-!
# Texts put together

Two rule texts make a third one: the first, a connective, and the second in parentheses
(`splice`). Reading goes along with this. The words of a text stay the same wherever it stands,
but for their places (`wordsFrom_add`), so the tokens of the whole are those of its parts, those
of the second text moved by the bytes in front of it; and the rule of the whole is the join of
the two rules, under limits that add up from those of the parts.
-/

namespace Eligibility

/-! ## Texts that stand further behind -/

/-- The word, `offset` bytes further behind. -/
def Word.shift (offset : Nat) (w : Word) : Word :=
  { w with position := w.position + offset }

/-- The token, `offset` bytes further behind. -/
def PlacedToken.shift (offset : Nat) (placed : PlacedToken) : PlacedToken :=
  { placed with position := placed.position + offset }

/-- A text has the same words wherever it stands. -/
theorem wordsFrom_add (position offset : Nat) (text : List Char) :
    wordsFrom (position + offset) text = (wordsFrom position text).map (Word.shift offset) := by
  fun_induction wordsFrom position text with
  | case1 position => simp
  | case2 position c cs blank ih =>
      rw [wordsFrom_blank blank, Nat.add_right_comm, ih]
  | case3 position c cs notBlank parenthesis ih =>
      rw [wordsFrom_parenthesis parenthesis, Nat.add_right_comm, ih]
      rfl
  | case4 position c cs notBlank notParenthesis text ih =>
      have char : isWordChar c = true :=
        @isWordChar_of_mem_run c cs notBlank notParenthesis c List.mem_cons_self
      rw [wordsFrom_wordChar char, Nat.add_right_comm, ih]
      rfl

/-- Words that stand further behind spell the same tokens further behind. -/
theorem Spelling.shift {words : List Word} {tokens : List PlacedToken}
    (h : Spelling words tokens) (offset : Nat) :
    Spelling (words.map (Word.shift offset)) (tokens.map (PlacedToken.shift offset)) := by
  induction h with
  | nil => exact .nil
  | opening later ih => exact ih.opening
  | closing later ih => exact ih.closing
  | connective op later ih => exact ih.connective op
  | condition c identifier notConnective spelled later ih =>
      exact ih.condition c identifier notConnective spelled

theorem Spelling.append {words words' : List Word} {tokens tokens' : List PlacedToken}
    (h : Spelling words tokens) (h' : Spelling words' tokens') :
    Spelling (words ++ words') (tokens ++ tokens') := by
  induction h with
  | nil => exact h'
  | opening later ih => exact ih.opening
  | closing later ih => exact ih.closing
  | connective op later ih => exact ih.connective op
  | condition c identifier notConnective spelled later ih =>
      exact ih.condition c identifier notConnective spelled

/-! ## The tokens of the whole -/

/-- The first text, a connective, and the second text in parentheses. -/
def splice (op : Connective) (first second : String) : String :=
  first ++ " " ++ op.word ++ " (" ++ second ++ ")"

/-- The tokens of two texts, the connective with the parenthesis behind it, and the closing
parenthesis, each at its place in the whole. -/
def spliceTokens (op : Connective) (first second : String) (placed placed' : List PlacedToken) :
    List PlacedToken :=
  placed ++ ⟨.connective op, (first ++ " ").utf8ByteSize⟩ ::
    ⟨.opening, (first ++ " " ++ op.word ++ " ").utf8ByteSize⟩ ::
    (placed'.map (PlacedToken.shift (first ++ " " ++ op.word ++ " (").utf8ByteSize) ++
      [⟨.closing, (first ++ " " ++ op.word ++ " (" ++ second).utf8ByteSize⟩])

/-- The words in front of what does not carry on the last one. -/
theorem wordsFrom_append_of_breaksWord {rest : List Char} (breaks : BreaksWord rest)
    (position : Nat) (text : List Char) :
    wordsFrom position (text ++ rest) =
      wordsFrom position text ++ wordsFrom (position + width text) rest :=
  wordsFrom_append fun _ _ _ => breaks

theorem words_splice (op : Connective) (first second : String) :
    words (splice op first second).toList =
      words first.toList ++ ⟨op.word.toList, (first ++ " ").utf8ByteSize⟩ ::
        ⟨['('], (first ++ " " ++ op.word ++ " ").utf8ByteSize⟩ ::
        ((words second.toList).map
            (Word.shift (first ++ " " ++ op.word ++ " (").utf8ByteSize) ++
          [⟨[')'], (first ++ " " ++ op.word ++ " (" ++ second).utf8ByteSize⟩]) := by
  have blank : ∀ text : List Char, BreaksWord (' ' :: text) := breaksWord_cons (by decide)
  have closing : BreaksWord [')'] := breaksWord_cons (by decide) []
  have split : (splice op first second).toList =
      first.toList ++ ' ' :: (op.word.toList ++ ' ' :: '(' :: (second.toList ++ [')'])) := by
    simp [splice]
  rw [split, words, words, words, wordsFrom_append_of_breaksWord (blank _),
    wordsFrom_blank (by decide), wordsFrom_word (word_ne_nil op) (isWordChar_of_mem_word op)
    (blank _), wordsFrom_blank (by decide), wordsFrom_parenthesis (by decide),
    wordsFrom_append_of_breaksWord closing, wordsFrom_parenthesis (by decide), wordsFrom_nil,
    ← wordsFrom_add]
  simp only [width_toList, String.utf8ByteSize_append, Nat.zero_add]
  rfl

/-- The tokens of the whole are those of its parts. -/
theorem tokenize_splice {first second : String} {placed placed' : List PlacedToken}
    (h : tokenize first = .ok placed) (h' : tokenize second = .ok placed') (op : Connective) :
    tokenize (splice op first second) = .ok (spliceTokens op first second placed placed') := by
  have before := spelling_of_tokenize h
  have inside := (spelling_of_tokenize h').shift (first ++ " " ++ op.word ++ " (").utf8ByteSize
  rw [tokenize, words_splice]
  refine (before.append ?_).tokensOfWords_eq
  exact (inside.append Spelling.nil.closing).opening.connective op

/-! ## The rule of the whole -/

section Tokens

variable {op : Connective} {first second : String} {placed placed' : List PlacedToken}

theorem conditionCount_spliceTokens :
    conditionCount (spliceTokens op first second placed placed') =
      conditionCount placed + conditionCount placed' := by
  have moved (offset : Nat) :
      conditionCount (placed'.map (PlacedToken.shift offset)) = conditionCount placed' := by
    rw [conditionCount, List.countP_map]
    rfl
  rw [spliceTokens, conditionCount, List.countP_append, List.countP_cons_of_neg Bool.false_ne_true,
    List.countP_cons_of_neg Bool.false_ne_true, List.countP_append]
  exact congrArg (conditionCount placed + ·) (moved _)

/-- The derivation of the whole has that of the second text as a group. -/
theorem tokens_spliceTokens {e e' : Expression} (h : e.tokens = placed.map (·.token))
    (h' : e'.tokens = placed'.map (·.token)) :
    (e.snoc op (.group e')).tokens =
      (spliceTokens op first second placed placed').map (·.token) := by
  have moved (offset : Nat) :
      (placed'.map (PlacedToken.shift offset)).map (·.token) = placed'.map (·.token) := by
    rw [List.map_map]
    rfl
  rw [Expression.tokens_snoc, Operand.tokens, h, h', spliceTokens]
  simp only [List.map_append, List.map_cons, List.map_nil, moved]

end Tokens

namespace Rule

/-- Two texts that are rules, under whatever limits, make a third one, with a connective between
them and parentheses around the second. Its tokens are those of the first text as they are, the
connective and the parenthesis, those of the second text moved by the bytes in front of it, and
the closing parenthesis. It is read as the join of the two rules, exactly under the limits that
admit its bytes, the conditions of both texts, and the parentheses of the first and of the
second with one level more. -/
theorem ofText_splice (op : Connective) (config₁ config₂ : Config) (first second : String)
    (left right : Rule) (h₁ : ofText config₁ first = .ok left)
    (h₂ : ofText config₂ second = .ok right) :
    ∃ placed placed' : List PlacedToken,
      tokenize first = .ok placed ∧ tokenize second = .ok placed' ∧
      tokenize (splice op first second) =
        .ok (placed ++ ⟨.connective op, (first ++ " ").utf8ByteSize⟩ ::
          ⟨.opening, (first ++ " " ++ op.word ++ " ").utf8ByteSize⟩ ::
          (placed'.map (PlacedToken.shift (first ++ " " ++ op.word ++ " (").utf8ByteSize) ++
            [⟨.closing, (first ++ " " ++ op.word ++ " (" ++ second).utf8ByteSize⟩])) ∧
      ∀ config : Config, ofText config (splice op first second) = .ok (join op left right) ↔
        (splice op first second).utf8ByteSize ≤ config.maxLength ∧
          conditionCount placed + conditionCount placed' ≤ config.maxConditions ∧
          max (nestingOf placed) (nestingOf placed' + 1) ≤ config.maxNesting := by
  obtain ⟨-, placed, e, htokens, hspelled, rfl, -⟩ := ofText_eq_ok_iff.1 h₁
  obtain ⟨-, placed', e', htokens', hspelled', rfl, -⟩ := ofText_eq_ok_iff.1 h₂
  have whole := tokenize_splice htokens htokens' op
  have spelled : (e.snoc op (.group e')).tokens =
      (spliceTokens op first second placed placed').map (·.token) :=
    tokens_spliceTokens hspelled hspelled'
  have rule : (e.snoc op (.group e')).rule = join op e.rule e'.rule := by
    rw [Expression.rule_snoc, Operand.rule]
  have nesting : (e.snoc op (.group e')).nesting =
      max (nestingOf placed) (nestingOf placed' + 1) := by
    rw [Expression.nesting_snoc, Operand.nesting, nestingOf_eq_nesting hspelled,
      nestingOf_eq_nesting hspelled']
  refine ⟨placed, placed', htokens, htokens', whole, fun config => ⟨fun h => ?_, ?_⟩⟩
  · obtain ⟨short, found, hfound, few, flat⟩ := within_limits_of_ofText h
    obtain rfl := Except.ok.inj (whole.symm.trans hfound)
    rw [conditionCount_spliceTokens] at few
    rw [nestingOf_eq_nesting spelled, nesting] at flat
    exact ⟨short, few, flat⟩
  · rintro ⟨short, few, flat⟩
    have few : conditionCount (spliceTokens op first second placed placed') ≤
        config.maxConditions := by
      rwa [conditionCount_spliceTokens]
    have flat : (e.snoc op (.group e')).nesting ≤ config.maxNesting := by
      rwa [nesting]
    rw [ofText_eq_ofTokens short whole few, ofTokens_eq_ok_of_tokens spelled.symm flat, rule]
    rfl

/-- Neither text meets the limits under which the other one is a rule. The second one ends in an
ideographic space of three bytes, which stands in front of the closing parenthesis, and has one
parenthesis that now stands in another. -/
theorem ofText_splice_ideographic :
    ofText ⟨.or, 0, 17, 2⟩ "a = 'é' OR b > 2" =
        .ok (join .or (condition ⟨"a", .eq, .text "é"⟩) (condition ⟨"b", .gt, .integer 2⟩)) ∧
      ofText ⟨.and, 1, 10, 1⟩ "(c > 3)\u3000" = .ok (condition ⟨"c", .gt, .integer 3⟩) ∧
      ∀ config : Config, ofText config "a = 'é' OR b > 2 AND ((c > 3)\u3000)" =
          .ok (join .and
            (join .or (condition ⟨"a", .eq, .text "é"⟩) (condition ⟨"b", .gt, .integer 2⟩))
            (condition ⟨"c", .gt, .integer 3⟩)) ↔
        34 ≤ config.maxLength ∧ 3 ≤ config.maxConditions ∧ 2 ≤ config.maxNesting := by
  have first : ofText ⟨.or, 0, 17, 2⟩ "a = 'é' OR b > 2" =
      .ok (join .or (condition ⟨"a", .eq, .text "é"⟩) (condition ⟨"b", .gt, .integer 2⟩)) := by
    decide +kernel
  have second : ofText ⟨.and, 1, 10, 1⟩ "(c > 3)\u3000" =
      .ok (condition ⟨"c", .gt, .integer 3⟩) := by
    decide +kernel
  have placed : tokenize "a = 'é' OR b > 2" =
      .ok [⟨.condition ⟨"a", .eq, .text "é"⟩, 0⟩, ⟨.connective .or, 9⟩,
        ⟨.condition ⟨"b", .gt, .integer 2⟩, 12⟩] := by
    decide +kernel
  have placed' : tokenize "(c > 3)\u3000" =
      .ok [⟨.opening, 0⟩, ⟨.condition ⟨"c", .gt, .integer 3⟩, 1⟩, ⟨.closing, 6⟩] := by
    decide +kernel
  have long : (splice .and "a = 'é' OR b > 2" "(c > 3)\u3000").utf8ByteSize = 34 := by
    decide +kernel
  have whole : splice .and "a = 'é' OR b > 2" "(c > 3)\u3000" =
      "a = 'é' OR b > 2 AND ((c > 3)\u3000)" := by
    decide +kernel
  obtain ⟨found, found', hfound, hfound', -, read⟩ :=
    ofText_splice .and _ _ _ _ _ _ first second
  obtain rfl := Except.ok.inj (placed.symm.trans hfound)
  obtain rfl := Except.ok.inj (placed'.symm.trans hfound')
  rw [long, whole] at read
  exact ⟨first, second, read⟩

end Rule

end Eligibility
