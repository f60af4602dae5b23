import Eligibility.Proofs.Json.RoundTrip

/-!
# Values inside of containers

A reader that has containers open goes through the text of a value as one that has none: each
of its steps is that of the other, with the containers put around it (`Reader.under`,
`Reader.step_under`). This holds up to the end of the value, where nothing may follow if no
container is open.

So the text of a value is read in the same way wherever it stands (`Reader.result_of_read`), and
whatever is read as a value inside of a container is the text of one (`Reader.exists_valueText`).
-/

namespace Eligibility.Json

namespace Reader

/-! ## Inside of strings -/

/-- Up to its end a string is read without regard to what it is for, and to where it stands. -/
theorem step_string (pieces : List Piece) {phase : StringPhase} {c : Char}
    (inside : phase = .plain → c ≠ '"') :
    (∀ isName frames, (⟨.string isName pieces phase, frames⟩ : Reader).step c = none) ∨
      ∃ pieces' phase', ∀ isName frames,
        (⟨.string isName pieces phase, frames⟩ : Reader).step c =
          some ⟨.string isName pieces' phase', frames⟩ := by
  cases phase with
  | plain =>
      simp only [step, inString, if_neg (inside rfl)]
      split
      · exact .inr ⟨_, _, fun _ _ => rfl⟩
      · split
        · exact .inl fun _ _ => rfl
        · exact .inr ⟨_, _, fun _ _ => rfl⟩
  | escape =>
      simp only [step, inString]
      split
      · exact .inr ⟨_, _, fun _ _ => rfl⟩
      · cases shortEscape? c with
        | none => exact .inl fun _ _ => rfl
        | some c' => exact .inr ⟨_, _, fun _ _ => rfl⟩
  | unit count u =>
      cases hd : hexValue? c with
      | none => exact .inl fun _ _ => by simp only [step, inString, hd, Option.map_none]
      | some d =>
          simp only [step_unit _ _ _ _ _ hd]
          split
          · exact .inr ⟨_, _, fun _ _ => rfl⟩
          · exact .inr ⟨_, _, fun _ _ => rfl⟩

/-! ## Readers of one value -/

/-- The reader is in the middle of a value, or in front or at the end of it: all else takes an
open container. -/
def InValue (reader : Reader) : Prop :=
  reader.frames = [] →
    match reader.phase with
    | .value | .done _ | .word _ _ | .number _ | .string false _ _ => True
    | _ => False

section InValue

variable {frames : List Frame} {reader : Reader} {c : Char}

theorem InValue.of_ne (ne : reader.frames ≠ []) : reader.InValue :=
  fun empty => absurd empty ne

theorem inValue_store (j : Json) (frames : List Frame) : (store j frames).InValue := by
  cases frames with
  | nil => exact fun _ => trivial
  | cons frame frames => cases frame <;> exact .of_ne (List.cons_ne_nil _ _)

theorem inValue_open? (h : open? frames c = some reader) : reader.InValue := by
  rw [open?.eq_def] at h
  split at h
  · cases h
    exact .of_ne (List.cons_ne_nil _ _)
  · cases h
    exact .of_ne (List.cons_ne_nil _ _)
  · cases h
    exact fun _ => trivial
  · cases h
    exact fun _ => trivial
  · cases h
    exact fun _ => trivial
  · cases h
    exact fun _ => trivial
  · obtain ⟨part, -, rfl⟩ := Option.map_eq_some_iff.1 h
    exact fun _ => trivial

theorem inValue_close? (h : close? frames c = some reader) : reader.InValue := by
  rw [close?.eq_def] at h
  split at h
  · cases h
    exact inValue_store _ _
  · cases h
    exact inValue_store _ _
  · cases h

theorem inValue_between {phase : Phase} (inside : (⟨phase, frames⟩ : Reader).InValue)
    (h : between phase frames c = some reader) : reader.InValue := by
  rw [between.eq_def] at h
  split at h
  · cases h
    exact inside
  cases phase with
  | value => exact inValue_open? h
  | firstItem =>
      dsimp only at h
      split at h
      · exact inValue_close? h
      · exact inValue_open? h
  | name =>
      dsimp only at h
      split at h
      · cases h
        exact inside
      · cases h
  | firstName =>
      dsimp only at h
      split at h
      · cases h
        exact inside
      · exact inValue_close? h
  | colon =>
      dsimp only at h
      split at h
      · cases h
        exact fun _ => trivial
      · cases h
  | separator =>
      dsimp only at h
      split at h
      · split at h
        · cases h
          exact .of_ne (List.cons_ne_nil _ _)
        · cases h
          exact .of_ne (List.cons_ne_nil _ _)
        · cases h
      · exact inValue_close? h
  | _ => cases h

theorem inValue_storeString {isName : Bool} {pieces : List Piece}
    (h : storeString isName pieces frames = some reader) : reader.InValue := by
  rw [storeString.eq_def] at h
  dsimp only at h
  split at h
  · split at h
    · cases h
      exact .of_ne (List.cons_ne_nil _ _)
    · cases h
  · cases h
    exact inValue_store _ _

theorem InValue.step {next : Reader} (inside : reader.InValue) (h : reader.step c = some next) :
    next.InValue := by
  obtain ⟨phase, frames⟩ := reader
  cases phase with
  | string isName pieces phase =>
      by_cases closing : phase = .plain ∧ c = '"'
      · obtain ⟨rfl, rfl⟩ := closing
        exact inValue_storeString h
      · rcases step_string pieces fun plain quote => closing ⟨plain, quote⟩ with
          none | ⟨_, _, some⟩
        · rw [none] at h
          cases h
        · rw [some] at h
          cases h
          cases isName with
          | false => exact fun _ => trivial
          | true => exact inside
  | word rest j =>
      match rest with
      | [] => cases h
      | [last] =>
          simp only [Reader.step] at h
          split at h
          · cases h
            exact inValue_store _ _
          · cases h
      | next :: second :: rest =>
          simp only [Reader.step] at h
          split at h
          · cases h
            exact fun _ => trivial
          · cases h
  | number part =>
      simp only [Reader.step] at h
      split at h
      · cases h
        exact fun _ => trivial
      · obtain ⟨n, -, h⟩ := Option.bind_eq_some_iff.1 h
        exact inValue_between (inValue_store _ _) h
  | _ => exact inValue_between inside h

end InValue

/-! ## Values inside of containers -/

/-- The reader at the same place of a text that stands inside of containers. -/
def under (outer : List Frame) : Reader → Reader
  | ⟨.done j, _⟩ => store j outer
  | ⟨phase, frames⟩ => ⟨phase, frames ++ outer⟩

section Under

variable {outer frames : List Frame} {c : Char}

theorem store_under (j : Json) :
    store j (frames ++ outer) = (store j frames).under outer := by
  cases frames with
  | nil => rfl
  | cons frame frames => cases frame <;> rfl

theorem storeString_under {isName : Bool} (pieces : List Piece)
    (inside : isName = true → frames ≠ []) :
    storeString isName pieces (frames ++ outer) =
      (storeString isName pieces frames).map (under outer) := by
  cases isName with
  | false => exact congrArg some (store_under _)
  | true =>
      cases frames with
      | nil => exact absurd rfl (inside rfl)
      | cons frame frames => cases frame <;> rfl

theorem open?_under (c : Char) :
    open? (frames ++ outer) c = (open? frames c).map (under outer) := by
  rw [open?.eq_def, open?.eq_def]
  split
  · rfl
  · rfl
  · rfl
  · rfl
  · rfl
  · rfl
  · rw [Option.map_map]
    rfl

theorem close?_of_ne (frames : List Frame) (bracket : c ≠ ']') (brace : c ≠ '}') :
    close? frames c = none := by
  rw [close?.eq_def]
  split
  · exact absurd rfl bracket
  · exact absurd rfl brace
  · rfl

theorem close?_under (c : Char) (ne : frames ≠ []) :
    close? (frames ++ outer) c = (close? frames c).map (under outer) := by
  by_cases bracket : c = ']'
  · subst bracket
    match frames with
    | [] => exact absurd rfl ne
    | .array items :: frames => exact congrArg some (store_under _)
    | .object members name :: frames => rfl
  by_cases brace : c = '}'
  · subst brace
    match frames with
    | [] => exact absurd rfl ne
    | .array items :: frames => rfl
    | .object members name :: frames => exact congrArg some (store_under _)
  rw [close?_of_ne _ bracket brace, close?_of_ne _ bracket brace]
  rfl

theorem between_under {phase : Phase} (c : Char) (going : ∀ j, phase ≠ .done j)
    (inside : (⟨phase, frames⟩ : Reader).InValue) :
    between phase (frames ++ outer) c = (between phase frames c).map (under outer) := by
  have stay : (⟨phase, frames⟩ : Reader).under outer = ⟨phase, frames ++ outer⟩ := by
    cases phase with
    | done j => exact absurd rfl (going j)
    | _ => rfl
  rw [between.eq_def, between.eq_def]
  split
  · rw [Option.map_some, stay]
  cases phase with
  | value => exact open?_under c
  | firstItem =>
      dsimp only
      split
      · exact close?_under c inside
      · exact open?_under c
  | name =>
      dsimp only
      split <;> rfl
  | firstName =>
      dsimp only
      split
      · rfl
      · exact close?_under c inside
  | colon =>
      dsimp only
      split <;> rfl
  | separator =>
      have ne : frames ≠ [] := inside
      dsimp only
      split
      · match frames with
        | [] => exact absurd rfl ne
        | .array items :: frames => rfl
        | .object members name :: frames => rfl
      · exact close?_under c ne
  | _ => rfl

theorem step_done (j : Json) (frames : List Frame) (c : Char) :
    (⟨.done j, frames⟩ : Reader).step c =
      if isSpace c = true then some ⟨.done j, frames⟩ else none := rfl

theorem step_store_space (j : Json) (frames : List Frame) (space : isSpace c = true) :
    (store j frames).step c = some (store j frames) := by
  rw [step_store, between.eq_def, if_pos space]

theorem step_store_under (j : Json) (c : Char) (ne : frames ≠ []) :
    (store j (frames ++ outer)).step c = ((store j frames).step c).map (under outer) := by
  cases frames with
  | nil => exact absurd rfl ne
  | cons frame frames =>
      rw [step_store, step_store]
      cases frame with
      | array items =>
          exact between_under c (fun _ => Phase.noConfusion) (.of_ne (List.cons_ne_nil _ _))
      | object members name =>
          exact between_under c (fun _ => Phase.noConfusion) (.of_ne (List.cons_ne_nil _ _))

theorem step_string_under {isName : Bool} {pieces : List Piece} {phase : StringPhase}
    (inside : (⟨.string isName pieces phase, frames⟩ : Reader).InValue) (c : Char) :
    (⟨.string isName pieces phase, frames ++ outer⟩ : Reader).step c =
      ((⟨.string isName pieces phase, frames⟩ : Reader).step c).map (under outer) := by
  by_cases closing : phase = .plain ∧ c = '"'
  · obtain ⟨rfl, rfl⟩ := closing
    refine storeString_under pieces ?_
    rintro rfl
    exact inside
  · rcases step_string pieces fun plain quote => closing ⟨plain, quote⟩ with none | ⟨_, _, some⟩
    · rw [none, none]
      rfl
    · rw [some, some]
      rfl

/-- Each step is the same inside of containers, but for the end of the value, where something
may follow. -/
theorem step_under {reader : Reader} (inside : reader.InValue) (outer : List Frame) (c : Char) :
    (reader.under outer).step c = (reader.step c).map (under outer) ∨
      ∃ j, reader.finish = some j ∧ isSpace c = false ∧ reader.step c = none ∧
        (reader.under outer).step c = (store j outer).step c := by
  obtain ⟨phase, frames⟩ := reader
  cases phase with
  | string isName pieces phase => exact .inl (step_string_under inside c)
  | word rest j =>
      left
      match rest with
      | [] => rfl
      | [last] =>
          simp only [step, under]
          split
          · exact congrArg some (store_under j)
          · rfl
      | next :: second :: rest =>
          simp only [step, under]
          split <;> rfl
  | number part =>
      cases hread : part.read c with
      | some part' =>
          left
          simp only [under, step, hread]
          rfl
      | none =>
          cases hn : part.number? with
          | none =>
              left
              simp only [under, step, hread, hn]
              rfl
          | some n =>
              have hstep : ∀ frames, (⟨.number part, frames⟩ : Reader).step c =
                  (store (.number n) frames).step c := fun frames => step_number hn frames hread
              simp only [under, hstep]
              cases frames with
              | nil =>
                  rw [List.nil_append, store, step_done]
                  cases space : isSpace c with
                  | true => exact .inl (step_store_space _ _ space)
                  | false => exact .inr ⟨.number n, congrArg (Option.map _) hn, rfl, rfl, rfl⟩
              | cons frame frames => exact .inl (step_store_under _ c (List.cons_ne_nil _ _))
  | done j =>
      rw [step_done]
      cases space : isSpace c with
      | true => exact .inl (step_store_space _ _ space)
      | false => exact .inr ⟨j, rfl, rfl, rfl, rfl⟩
  | _ => exact .inl (between_under c (fun _ => Phase.noConfusion) inside)

theorem foldlM_step_under {reader last : Reader} (inside : reader.InValue) {cs : List Char}
    (h : cs.foldlM step reader = some last) :
    cs.foldlM step (reader.under outer) = some (last.under outer) := by
  induction cs generalizing reader with
  | nil =>
      cases h
      rfl
  | cons c cs ih =>
      rw [List.foldlM_cons] at h ⊢
      obtain ⟨next, hnext, h⟩ := Option.bind_eq_some_iff.1 h
      rcases step_under inside outer c with same | ⟨_, -, -, none, -⟩
      · rw [same, hnext]
        exact ih (inside.step hnext) h
      · rw [none] at hnext
        cases hnext

end Under

theorem result_append (reader : Reader) (cs rest : List Char) :
    reader.result (cs ++ rest) = (cs.foldlM step reader).bind (·.result rest) := by
  rw [result, List.foldlM_append]
  exact Option.bind_assoc _ _ _

/-- Wherever the text of a value stands, it is read as the value, if nothing follows that
carries on a number. -/
theorem result_of_read {cs : List Char} {j : Json} (h : read (String.ofList cs) = some j)
    (frames : List Frame) {rest : List Char} (ends : EndsNumber rest) :
    (⟨.value, frames⟩ : Reader).result (cs ++ rest) = (store j frames).result rest := by
  rw [read_ofList] at h
  obtain ⟨last, hlast, hfinish⟩ := Option.bind_eq_some_iff.1 h
  have inside : start.InValue := fun _ => trivial
  have hunder : cs.foldlM step ⟨.value, frames⟩ = some (last.under frames) :=
    foldlM_step_under inside hlast
  rw [result_append, hunder, Option.bind_some]
  rw [finish.eq_def] at hfinish
  obtain ⟨phase, inner⟩ := last
  split at hfinish
  · next j' hphase =>
    cases hfinish
    cases hphase
    rfl
  · next part hphase hframes =>
    obtain ⟨n, hn, rfl⟩ := Option.map_eq_some_iff.1 hfinish
    cases hphase
    cases hframes
    exact result_number hn frames ends
  · cases hfinish

theorem finish_under (reader : Reader) (frame : Frame) (frames : List Frame) :
    (reader.under (frame :: frames)).finish = none := by
  obtain ⟨phase, inner⟩ := reader
  cases phase with
  | done j => cases frame <;> rfl
  | number part => cases inner <;> rfl
  | _ => rfl

/-- A reader inside of a container goes through the text of a value to a character behind it. -/
theorem exists_valueText {reader : Reader} (inside : reader.InValue) {frame : Frame}
    {frames : List Frame} {cs : List Char} {j : Json}
    (h : (reader.under (frame :: frames)).result cs = some j) :
    ∃ valueText value c rest, cs = valueText ++ c :: rest ∧
      reader.result valueText = some value ∧ isSpace c = false ∧
      (store value (frame :: frames)).result (c :: rest) = some j := by
  induction cs generalizing reader with
  | nil =>
      rw [result_nil, finish_under] at h
      cases h
  | cons c cs ih =>
      rcases step_under inside (frame :: frames) c with same | ⟨value, finish, space, -, behind⟩
      · obtain ⟨_, hstep, h⟩ := result_cons_eq_some_iff.1 h
        rw [same] at hstep
        obtain ⟨next, hnext, rfl⟩ := Option.map_eq_some_iff.1 hstep
        obtain ⟨valueText, value, c', rest, rfl, reads, space, h⟩ := ih (inside.step hnext) h
        exact ⟨c :: valueText, value, c', rest, rfl, (result_cons_of_step hnext _).trans reads,
          space, h⟩
      · rw [result_cons, behind, ← result_cons] at h
        exact ⟨[], value, c, cs, rfl, finish, space, h⟩

end Reader

end Eligibility.Json
