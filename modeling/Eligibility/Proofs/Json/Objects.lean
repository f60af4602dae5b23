import Eligibility.Proofs.Json.Replacement

/-!
# The objects of a text

A reader that has an object open goes through the name and the value of a member to the comma
or the bracket behind it. What it has gone through is the text of a `Member`: the name is read as
a string where it stands alone (`Reader.exists_quoted`), and the value as the value that is put
away.

So in a text that is read, whatever a brace outside of strings opens is written as its members
(`beginsObject_of_read`).
-/

namespace Eligibility.Json

/-- The text begins with an object: with its brackets and nothing but white space between them,
or with its members. -/
inductive BeginsObject : List Char → Prop
  | empty {spaces : List Char} (rest : List Char) (h : ∀ c ∈ spaces, isSpace c = true) :
    BeginsObject ('{' :: (spaces ++ '}' :: rest))
  | members (m : Member) (ms : List Member) (rest : List Char) :
    BeginsObject (objectText (m :: ms) ++ rest)

namespace Reader

/-- A reader in a name goes to the quote behind it. -/
theorem exists_quoted {pieces : List Piece} {phase : StringPhase}
    {members : List (Option String × Json)} {before : Option String} {frames : List Frame}
    {cs : List Char} {j : Json}
    (h : (⟨.string true pieces phase, .object members before :: frames⟩ : Reader).result cs =
      some j) :
    ∃ quoted name rest, cs = quoted ++ '"' :: rest ∧
      (⟨.string false pieces phase, []⟩ : Reader).result (quoted ++ ['"']) =
        some (.string name) ∧
      (⟨.colon, .object members name :: frames⟩ : Reader).result rest = some j := by
  induction cs generalizing pieces phase with
  | nil => cases h
  | cons c cs ih =>
      by_cases closing : phase = .plain ∧ c = '"'
      · obtain ⟨rfl, rfl⟩ := closing
        exact ⟨[], _, cs, rfl, rfl, h⟩
      · rw [result_cons] at h
        rcases step_string pieces fun plain quote => closing ⟨plain, quote⟩ with
          none | ⟨_, _, some⟩
        · rw [none] at h
          cases h
        · rw [some] at h
          obtain ⟨quoted, name, rest, rfl, reads, h⟩ := ih h
          exact ⟨c :: quoted, name, rest, rfl, (result_cons_of_step (some _ _) _).trans reads, h⟩

/-- A reader that is not at the end of its text goes through white space to a character that
takes it further. -/
theorem exists_spaces {phase : Phase} {frames : List Frame}
    (settled : ∀ c, (⟨phase, frames⟩ : Reader).step c = between phase frames c)
    (unfinished : (⟨phase, frames⟩ : Reader).finish = none) {cs : List Char} {j : Json}
    (h : (⟨phase, frames⟩ : Reader).result cs = some j) :
    ∃ spaces c rest next, cs = spaces ++ c :: rest ∧ (∀ c ∈ spaces, isSpace c = true) ∧
      isSpace c = false ∧ (⟨phase, frames⟩ : Reader).step c = some next ∧
      next.result rest = some j := by
  induction cs with
  | nil =>
      rw [result_nil, unfinished] at h
      cases h
  | cons c cs ih =>
      cases space : isSpace c with
      | false =>
          obtain ⟨next, hnext, h⟩ := result_cons_eq_some_iff.1 h
          exact ⟨[], c, cs, next, rfl, List.forall_mem_nil _, space, hnext, h⟩
      | true =>
          have stay : (⟨phase, frames⟩ : Reader).step c = some ⟨phase, frames⟩ := by
            rw [settled, between.eq_def, if_pos space]
          rw [result_cons_of_step stay] at h
          obtain ⟨spaces, c', rest, next, rfl, hspaces, found⟩ := ih h
          exact ⟨c :: spaces, c', rest, next, rfl, List.forall_mem_cons.2 ⟨space, hspaces⟩, found⟩

section Object

variable {members : List (Option String × Json)} {name : Option String} {frames : List Frame}

theorem eq_colon_of_step {c : Char} {next : Reader} (space : isSpace c = false)
    (h : (⟨.colon, .object members name :: frames⟩ : Reader).step c = some next) : c = ':' := by
  by_contra other
  change between .colon _ c = some next at h
  rw [between.eq_def, if_neg (Bool.eq_false_iff.1 space), if_neg other] at h
  cases h

theorem eq_quote_of_step {c : Char} {next : Reader} (space : isSpace c = false)
    (h : (⟨.name, .object members name :: frames⟩ : Reader).step c = some next) : c = '"' := by
  by_contra other
  change between .name _ c = some next at h
  rw [between.eq_def, if_neg (Bool.eq_false_iff.1 space), if_neg other] at h
  cases h

theorem eq_brace_of_close? {c : Char} {next : Reader}
    (h : close? (.object members name :: frames) c = some next) : c = '}' := by
  by_contra brace
  by_cases bracket : c = ']'
  · subst bracket
    cases h
  · rw [close?_of_ne _ bracket brace] at h
    cases h

theorem eq_quote_or_brace_of_step {c : Char} {next : Reader} (space : isSpace c = false)
    (h : (⟨.firstName, .object members name :: frames⟩ : Reader).step c = some next) :
    c = '"' ∨ c = '}' := by
  by_cases quote : c = '"'
  · exact .inl quote
  · change between .firstName _ c = some next at h
    rw [between.eq_def, if_neg (Bool.eq_false_iff.1 space)] at h
    exact .inr (eq_brace_of_close? ((if_neg quote).symm.trans h))

theorem eq_comma_or_brace_of_step {c : Char} {next : Reader} (space : isSpace c = false)
    (h : (⟨.separator, .object members name :: frames⟩ : Reader).step c = some next) :
    c = ',' ∨ c = '}' := by
  by_cases comma : c = ','
  · exact .inl comma
  · change between .separator _ c = some next at h
    rw [between.eq_def, if_neg (Bool.eq_false_iff.1 space)] at h
    exact .inr (eq_brace_of_close? ((if_neg comma).symm.trans h))

variable {j : Json}

/-- A reader in an object goes through the text of a member, from the quote in front of its
name. -/
theorem exists_member {before cs : List Char} (spaces : ∀ c ∈ before, isSpace c = true)
    (h : (⟨.string true [] .plain, .object members name :: frames⟩ : Reader).result cs =
      some j) :
    ∃ (m : Member) (c : Char) (rest : List Char), before ++ '"' :: cs = m.text ++ c :: rest ∧
      (c = ',' ∨ c = '}') ∧
      (⟨.separator, .object (m.entry :: members) m.name :: frames⟩ : Reader).result
        (c :: rest) = some j := by
  obtain ⟨quoted, name, rest, rfl, reads_name, h⟩ := exists_quoted h
  obtain ⟨behind, c, rest, next, rfl, hbehind, space, hnext, h⟩ :=
    exists_spaces (fun _ => rfl) rfl h
  obtain rfl := eq_colon_of_step space hnext
  cases hnext
  have inside : start.InValue := fun _ => trivial
  obtain ⟨valueText, value, c, rest, rfl, reads_value, space, h⟩ := exists_valueText inside h
  let m : Member :=
    { before, quoted, behind, valueText, name, value
      spaces := List.forall_mem_append.2 ⟨spaces, hbehind⟩
      reads_name := by
        rw [read_ofList]
        exact reads_name
      reads_value := by
        rw [read_ofList]
        exact reads_value }
  refine ⟨m, c, rest, (m.text_append _).symm, ?_, h⟩
  obtain ⟨next, hnext, -⟩ := result_cons_eq_some_iff.1 h
  exact eq_comma_or_brace_of_step space hnext

/-- Behind a member a reader goes through the texts of the later ones, to the end of the
object. -/
theorem exists_laterMemberText {c : Char} {rest : List Char} (hc : c = ',' ∨ c = '}')
    (h : (⟨.separator, .object members name :: frames⟩ : Reader).result (c :: rest) = some j) :
    ∃ ms rest', c :: rest = laterMemberText ms ++ '}' :: rest' := by
  induction hn : rest.length using Nat.strongRecOn generalizing c rest members name with
  | _ n ih =>
      rcases hc with rfl | rfl
      · have comma : (⟨.separator, .object members name :: frames⟩ : Reader).step ',' =
            some ⟨.name, .object members name :: frames⟩ := rfl
        rw [result_cons_of_step comma] at h
        obtain ⟨before, c, cs, next, rfl, spaces, space, hnext, h⟩ :=
          exists_spaces (fun _ => rfl) rfl h
        obtain rfl := eq_quote_of_step space hnext
        cases hnext
        obtain ⟨m, c, rest, htext, hc, h⟩ := exists_member spaces h
        have shorter : rest.length < n := by
          rw [← hn, htext, List.length_append, List.length_cons]
          omega
        obtain ⟨ms, rest', hrest⟩ := ih _ shorter hc h rfl
        refine ⟨m :: ms, rest', ?_⟩
        rw [htext, hrest, laterMemberText, List.cons_append, List.append_assoc]
      · exact ⟨[], rest, rfl⟩

theorem beginsObject_of_result {cs : List Char}
    (h : (⟨.firstName, .object members name :: frames⟩ : Reader).result cs = some j) :
    BeginsObject ('{' :: cs) := by
  obtain ⟨before, c, rest, next, rfl, spaces, space, hnext, h⟩ :=
    exists_spaces (fun _ => rfl) rfl h
  rcases eq_quote_or_brace_of_step space hnext with rfl | rfl
  · cases hnext
    obtain ⟨m, c, behind, htext, hc, h⟩ := exists_member spaces h
    obtain ⟨ms, behind, hbehind⟩ := exists_laterMemberText hc h
    have whole : '{' :: (m.text ++ (laterMemberText ms ++ '}' :: behind)) =
        objectText (m :: ms) ++ behind := by simp [objectText]
    rw [htext, hbehind, whole]
    exact .members m ms behind
  · exact .empty rest spaces

end Object

end Reader

/-- In a text that is read, wherever there is a brace outside of strings, an object begins. -/
theorem beginsObject_of_read {before cs : List Char}
    (outside : (before.foldl Scan.step {}).phase = .outside) {j : Json}
    (h : read (String.ofList (before ++ '{' :: cs)) = some j) : BeginsObject ('{' :: cs) := by
  rw [read_ofList, Reader.result_append] at h
  obtain ⟨⟨phase, frames⟩, hreader, h⟩ := Option.bind_eq_some_iff.1 h
  obtain ⟨next, hnext, h⟩ := Reader.result_cons_eq_some_iff.1 h
  have opening := Reader.opening_of_step_brace (follows_start.foldl hreader) outside hnext
  rw [Reader.step_of_opening opening rfl (by decide)] at hnext
  cases hnext
  exact Reader.beginsObject_of_result h

end Eligibility.Json
