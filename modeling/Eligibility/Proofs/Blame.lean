import Eligibility.Proofs.Reading
import Mathlib.Order.Bounds.Defs

/-!
# The position a fault is blamed on

Tokens that make up no rule still begin like one. What is read without an error is what
further tokens can complete (`viable_iff`), so reading stops at the first token that no
continuation could mend, and at the end only if every token can still be part of a rule.

The position of the fault is read off the tokens alone (`blame`): it is that of the token at
which reading stops, or that of a parenthesis which this token closes at once; at the end it
is the end itself after a connective, and else that of the innermost parenthesis which is
still open. A progress knows of the tokens before it just what this asks for: the open
parentheses, and the kind of the last token (`Progress.Tracks`).
-/

namespace Eligibility

/-! ## Tokens that can be completed -/

/-- Further tokens complete the tokens to an expression within the limit. -/
def Viable (limit : Nat) (tokens : List Token) : Prop :=
  ∃ (later : List Token) (e : Expression), e.tokens = tokens ++ later ∧ e.nesting ≤ limit

namespace Progress

/-- Tokens that complete a rule: an operand if one is due, and what closes the open groups. -/
def completion : Progress → List PlacedToken
  | operand groups _ => ⟨.condition default, 0⟩ :: groups.map fun _ => ⟨.closing, 0⟩
  | operator groups _ => groups.map fun _ => ⟨.closing, 0⟩

theorem exists_readAll_closings (limit : Nat) (groups : List Group) (done : Rule) :
    ∃ r, (operator groups done).readAll limit (groups.map fun _ => ⟨.closing, 0⟩) =
      .ok (operator [] r) := by
  induction groups generalizing done with
  | nil => exact ⟨done, rfl⟩
  | cons group groups ih =>
      obtain ⟨r, hr⟩ := ih (attach group.before done)
      exact ⟨r, (readAll_cons (read_eq_ok_iff.2 .closing) _).trans hr⟩

/-- Every progress can be completed. -/
theorem exists_readAll_completion (limit : Nat) (progress : Progress) :
    ∃ r, progress.readAll limit progress.completion = .ok (operator [] r) := by
  cases progress with
  | operand groups before =>
      obtain ⟨r, hr⟩ := exists_readAll_closings limit groups (attach before (.condition default))
      exact ⟨r, (readAll_cons (read_eq_ok_iff.2 .condition) _).trans hr⟩
  | operator groups done => exact exists_readAll_closings limit groups done

/-- What has been read was read up to any of its tokens. -/
theorem exists_readAll_of_append {limit : Nat} {progress last : Progress}
    {tokens later : List PlacedToken}
    (h : progress.readAll limit (tokens ++ later) = .ok last) :
    ∃ next, progress.readAll limit tokens = .ok next := by
  rw [readAll, List.foldlM_append, Except.bind_eq_ok_iff] at h
  obtain ⟨next, hnext, -⟩ := h
  exact ⟨next, hnext⟩

end Progress

/-- Tokens are read without an error exactly if they can be completed. -/
theorem viable_iff {limit : Nat} {placed : List PlacedToken} :
    Viable limit (placed.map (·.token)) ↔
      ∃ progress, Progress.start.readAll limit placed = .ok progress := by
  constructor
  · rintro ⟨later, e, htokens, hnesting⟩
    have spelled : (placed ++ later.map (PlacedToken.mk · 0)).map (·.token) = e.tokens := by
      rw [List.map_append, List.map_map, htokens]
      exact congrArg _ (List.map_id later)
    exact Progress.exists_readAll_of_append (e.read limit [] spelled (by simpa using hnesting))
  · rintro ⟨progress, h⟩
    obtain ⟨r, hr⟩ := progress.exists_readAll_completion limit
    have whole : Rule.ofTokens limit 0 (placed ++ progress.completion) = .ok r := by
      rw [Rule.ofTokens]
      change (Progress.start.readAll limit _).bind _ = _
      rw [Progress.readAll_append h, hr]
      rfl
    obtain ⟨e, htokens, hnesting, -⟩ := Rule.exists_tokens_of_ofTokens_eq_ok whole
    exact ⟨_, e, htokens.trans List.map_append, hnesting⟩

/-! ## Where reading stops -/

/-- An error arises at a token behind tokens that have been read. -/
theorem Progress.exists_of_readAll_eq_error {limit : Nat} {progress : Progress}
    {placed : List PlacedToken} {e : ParseError} (h : progress.readAll limit placed = .error e) :
    ∃ (read : List PlacedToken) (next : PlacedToken) (later : List PlacedToken)
      (reached : Progress), placed = read ++ next :: later ∧
      progress.readAll limit read = .ok reached ∧ reached.read limit next = .error e := by
  induction placed generalizing progress with
  | nil => cases h
  | cons token placed ih =>
      cases hstep : progress.read limit token with
      | error e' =>
          rw [readAll, List.foldlM_cons, hstep] at h
          cases h
          exact ⟨[], token, placed, progress, rfl, rfl, hstep⟩
      | ok progress' =>
          rw [readAll_cons hstep] at h
          obtain ⟨read, next, later, reached, rfl, hread, herror⟩ := ih h
          exact ⟨token :: read, next, later, reached, rfl,
            (readAll_cons hstep read).trans hread, herror⟩

/-- The parentheses that are open after one more token. -/
def openStep (opened : List Nat) (next : PlacedToken) : List Nat :=
  match next.token with
  | .opening => next.position :: opened
  | .closing => opened.tail
  | _ => opened

/-- The positions of the parentheses that are open after the tokens, the innermost first. -/
def openAfter (placed : List PlacedToken) : List Nat :=
  placed.foldl openStep []

/-- The position that is blamed if `read` can be completed, but no more of the tokens: that of
the next token, or of the parenthesis that it closes at once. If all have been read it is the
end after a connective, and else that of the innermost open parenthesis. -/
def blame (stop : Nat) (read rest : List PlacedToken) : Option Nat :=
  match rest, read.getLast? with
  | ⟨.closing, _⟩ :: _, some ⟨.opening, position⟩ => some position
  | next :: _, _ => some next.position
  | [], some ⟨.connective _, _⟩ => some stop
  | [], _ => (openAfter read).head?

namespace Progress

/-- The groups that are open. -/
def groups : Progress → List Group
  | operand groups _ => groups
  | operator groups _ => groups

/-- The positions of the parentheses that are open, the innermost first. -/
def opened (progress : Progress) : List Nat :=
  progress.groups.map (·.openedAt)

/-- What a progress says of the token read last. -/
def EndsWith : Progress → Option PlacedToken → Prop
  | operand groups none, last => last = groups.head?.map fun group => ⟨.opening, group.openedAt⟩
  | operand _ (some pending), last => ∃ position, last = some ⟨.connective pending.op, position⟩
  | operator _ _, last => ∃ next, last = some next ∧
      (next.token.isCondition = true ∨ next.token = .closing)

/-- What a progress says of the tokens that led to it. -/
structure Tracks (progress : Progress) (read : List PlacedToken) : Prop where
  opened : progress.opened = openAfter read
  last : progress.EndsWith read.getLast?

theorem tracks_start : start.Tracks [] :=
  ⟨rfl, rfl⟩

/-- The open parentheses change with every token that is read as they do on tokens. -/
theorem Takes.opened {limit : Nat} {progress progress' : Progress} {next : PlacedToken}
    (takes : Takes limit progress next progress') :
    progress'.opened = openStep progress.opened next := by
  cases takes <;> rfl

theorem Tracks.step {limit : Nat} {progress progress' : Progress} {read : List PlacedToken}
    {next : PlacedToken} (tracks : progress.Tracks read)
    (h : progress.read limit next = .ok progress') : progress'.Tracks (read ++ [next]) := by
  have takes := read_eq_ok_iff.1 h
  have last : (read ++ [next]).getLast? = some next := List.getLast?_concat
  constructor
  · rw [takes.opened, tracks.opened, openAfter, openAfter, List.foldl_append]
    rfl
  · rw [last]
    cases takes with
    | condition => exact ⟨_, rfl, .inl rfl⟩
    | opening within => rfl
    | connective => exact ⟨_, rfl⟩
    | closing => exact ⟨_, rfl, .inr rfl⟩

theorem Tracks.readAll {limit : Nat} {progress progress' : Progress}
    {read tokens : List PlacedToken} (tracks : progress.Tracks read)
    (h : progress.readAll limit tokens = .ok progress') :
    progress'.Tracks (read ++ tokens) := by
  induction tokens generalizing progress read with
  | nil =>
      cases h
      rwa [List.append_nil]
  | cons token tokens ih =>
      obtain ⟨next, hstep, hnext⟩ := readAll_cons_eq_ok_iff.1 h
      have tracks := ih (tracks.step hstep) hnext
      rwa [List.append_assoc, List.singleton_append] at tracks

/-- The error of a token that cannot be read is blamed as the tokens before it tell. -/
theorem Tracks.blame_of_read_eq_error {limit stop : Nat} {progress : Progress}
    {read later : List PlacedToken} {next : PlacedToken} {e : ParseError}
    (tracks : progress.Tracks read) (h : progress.read limit next = .error e) :
    blame stop read (next :: later) = some e.position := by
  obtain ⟨-, last⟩ := tracks
  obtain ⟨token, position⟩ := next
  cases progress with
  | operand groups before =>
      cases token with
      | condition c => cases h
      | connective op => cases before <;> cases h <;> rfl
      | opening =>
          by_cases within : groups.length < limit
          · rw [read_opening within] at h
            cases h
          · simp only [Progress.read, within, if_false] at h
            cases h
            rfl
      | closing =>
          cases before with
          | some pending =>
              obtain ⟨position', last⟩ := last
              cases h
              simp only [blame, last]
          | none =>
              simp only [EndsWith] at last
              cases groups <;> cases h <;>
                simp only [blame, last, List.head?_nil, List.head?_cons, Option.map]
  | operator groups done =>
      obtain ⟨⟨token', position'⟩, last, ended⟩ := last
      cases token with
      | connective op => cases groups <;> cases h
      | condition c => cases groups <;> cases h <;> rfl
      | opening => cases groups <;> cases h <;> rfl
      | closing =>
          -- no group is open, and the last token ends an operand
          cases groups <;> cases h
          cases token' <;> simp_all [blame, Token.isCondition]

/-- The error at the end is blamed as the tokens tell. -/
theorem Tracks.blame_of_finish_eq_error {stop : Nat} {progress : Progress}
    {read : List PlacedToken} {e : ParseError} (nonempty : read ≠ [])
    (tracks : progress.Tracks read) (h : progress.finish stop = .error e) :
    blame stop read [] = some e.position := by
  obtain ⟨opened, last⟩ := tracks
  cases progress with
  | operand groups before =>
      cases before with
      | some pending =>
          obtain ⟨position, last⟩ := last
          cases h
          simp only [blame, last]
      | none =>
          simp only [EndsWith] at last
          cases groups with
          | nil => exact absurd (List.getLast?_eq_none_iff.1 last) nonempty
          | cons group groups =>
              cases h
              simp only [blame, last, List.head?_cons, Option.map, ← opened]
              rfl
  | operator groups done =>
      obtain ⟨⟨token, position⟩, last, ended⟩ := last
      cases groups with
      | nil => cases h
      | cons group groups =>
          cases h
          cases token <;>
            simp_all [blame, Token.isCondition, ← opened, Progress.opened, Progress.groups]

end Progress

/-- Nothing goes on from a token that cannot be read. -/
theorem not_viable_of_read_eq_error {limit : Nat} {read : List PlacedToken} {next : PlacedToken}
    {reached : Progress} {e : ParseError} (h : Progress.start.readAll limit read = .ok reached)
    (herror : reached.read limit next = .error e) :
    ¬ Viable limit ((read ++ [next]).map (·.token)) := by
  rw [viable_iff, Progress.readAll_append h, Progress.readAll, List.foldlM_cons, herror]
  rintro ⟨progress, hprogress⟩
  cases hprogress

theorem Viable.of_prefix {limit : Nat} {tokens longer : List Token} (h : Viable limit longer)
    (begins : tokens <+: longer) : Viable limit tokens := by
  obtain ⟨more, rfl⟩ := begins
  obtain ⟨later, e, htokens, hnesting⟩ := h
  exact ⟨more ++ later, e, htokens.trans (List.append_assoc _ _ _), hnesting⟩

/-- What stands before a token that cannot be read is the longest part that can be completed. -/
theorem isGreatest_viable_of_read_eq_error {limit : Nat} {read : List PlacedToken}
    {next : PlacedToken} {reached : Progress} {e : ParseError}
    (h : Progress.start.readAll limit read = .ok reached)
    (herror : reached.read limit next = .error e) (later : List PlacedToken) :
    IsGreatest {k | k ≤ (read ++ next :: later).length ∧
      Viable limit (((read ++ next :: later).take k).map (·.token))} read.length := by
  constructor
  · refine ⟨by simp, ?_⟩
    rw [List.take_left, viable_iff]
    exact ⟨reached, h⟩
  · rintro j ⟨-, viable⟩
    refine Nat.le_of_not_lt fun longer => ?_
    refine not_viable_of_read_eq_error h herror (viable.of_prefix ?_)
    have begins : read ++ [next] <+: (read ++ next :: later).take j := by
      rw [List.prefix_take_iff, List.length_append]
      exact ⟨⟨later, List.append_assoc _ _ _⟩, longer⟩
    exact begins.map _

theorem isGreatest_viable_of_readAll_eq_ok {limit : Nat} {placed : List PlacedToken}
    {progress : Progress} (h : Progress.start.readAll limit placed = .ok progress) :
    IsGreatest {k | k ≤ placed.length ∧ Viable limit ((placed.take k).map (·.token))}
      placed.length := by
  refine ⟨⟨Nat.le_refl _, ?_⟩, fun k hk => hk.1⟩
  rw [List.take_length, viable_iff]
  exact ⟨progress, h⟩

/-- Tokens that make up no rule are blamed where the longest part of them ends that further
tokens could complete. -/
theorem Rule.exists_isGreatest_viable_of_ofTokens_eq_error (limit stop : Nat)
    (placed : List PlacedToken) (e : ParseError) (nonempty : placed ≠ [])
    (h : Rule.ofTokens limit stop placed = .error e) :
    ∃ k, IsGreatest {k | k ≤ placed.length ∧ Viable limit ((placed.take k).map (·.token))} k ∧
      blame stop (placed.take k) (placed.drop k) = some e.position := by
  change (Progress.start.readAll limit placed).bind (Progress.finish stop) = .error e at h
  cases hread : Progress.start.readAll limit placed with
  | error e' =>
      rw [hread] at h
      cases h
      obtain ⟨read, next, later, reached, rfl, hreached, herror⟩ :=
        Progress.exists_of_readAll_eq_error hread
      refine ⟨read.length, isGreatest_viable_of_read_eq_error hreached herror later, ?_⟩
      rw [List.take_left, List.drop_left]
      exact (Progress.tracks_start.readAll hreached).blame_of_read_eq_error herror
  | ok progress =>
      rw [hread] at h
      refine ⟨placed.length, isGreatest_viable_of_readAll_eq_ok hread, ?_⟩
      rw [List.take_length, List.drop_length]
      exact (Progress.tracks_start.readAll hread).blame_of_finish_eq_error nonempty h

/-- The tokens of `(a > 1 AND ())`. -/
def closedAtOnce : List PlacedToken :=
  [⟨.opening, 0⟩, ⟨.condition ⟨"a", .gt, .integer 1⟩, 1⟩, ⟨.connective .and, 7⟩, ⟨.opening, 11⟩,
    ⟨.closing, 12⟩, ⟨.closing, 13⟩]

theorem Rule.exists_isGreatest_viable_of_ofTokens_eq_error_closedAtOnce :
    closedAtOnce ≠ [] ∧ Rule.ofTokens 2 14 closedAtOnce = .error ⟨.emptyGroup, 11⟩ ∧
      ∃ k, IsGreatest
          {k | k ≤ closedAtOnce.length ∧ Viable 2 ((closedAtOnce.take k).map (·.token))} k ∧
        blame 14 (closedAtOnce.take k) (closedAtOnce.drop k) = some 11 := by
  have nonempty : closedAtOnce ≠ [] := by decide
  have fault : Rule.ofTokens 2 14 closedAtOnce = .error ⟨.emptyGroup, 11⟩ := rfl
  exact ⟨nonempty, fault,
    Rule.exists_isGreatest_viable_of_ofTokens_eq_error 2 14 closedAtOnce _ nonempty fault⟩

end Eligibility
