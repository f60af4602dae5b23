import Eligibility.Proofs.Json.Members
import Eligibility.Proofs.Json.Nesting
import Mathlib.Data.List.Forall2

/-!
# Objects written with other members

A reader puts values away without looking at them. So two readers that have put away values
related in some way, and go on through the same text, stay alike (`Reader.step_alike`) and
find values that are related where containers of related values are (`Congruence`).

In a text that has an object written in it, the object may therefore be written with other
members, if these make up a related object: the text is then read as a related value
(`exists_read_objectText`). What stands in front of the object must be outside of strings, or
the object would be a part of one.
-/

namespace Eligibility.Json

theorem exists_of_rel_some {α β : Type} {r : α → β → Prop} {o : Option α} {o' : Option β}
    {a : α} (h : Option.Rel r o o') (ha : o = some a) : ∃ b, o' = some b ∧ r a b := by
  subst ha
  cases h with
  | some h => exact ⟨_, rfl, h⟩

/-! ## Relations that respect containers -/

/-- Two members have the same name and related values. -/
def RelatedMembers (R : Json → Json → Prop) (member member' : Option String × Json) : Prop :=
  member.1 = member'.1 ∧ R member.2 member'.2

/-- Every value is related to itself, and containers are if what they hold is, place by
place. -/
structure Congruence (R : Json → Json → Prop) : Prop where
  refl : ∀ j, R j j
  array : ∀ {items items' : List Json}, List.Forall₂ R items items' →
    R (.array items) (.array items')
  object : ∀ {members members' : List (Option String × Json)},
    List.Forall₂ (RelatedMembers R) members members' → R (.object members) (.object members')

/-! ## Readers that have read related values -/

inductive Frame.Alike (R : Json → Json → Prop) : Frame → Frame → Prop
  | array {items items' : List Json} (h : List.Forall₂ R items items') :
    Alike R (.array items) (.array items')
  | object {members members' : List (Option String × Json)} {name : Option String}
    (h : List.Forall₂ (RelatedMembers R) members members') :
    Alike R (.object members name) (.object members' name)

namespace Reader

/-- The readers are at the same place of a text, and what they have read is related. -/
inductive Alike (R : Json → Json → Prop) : Reader → Reader → Prop
  | done {j j' : Json} (h : R j j') : Alike R ⟨.done j, []⟩ ⟨.done j', []⟩
  | going {phase : Phase} {frames frames' : List Frame}
    (h : List.Forall₂ (Frame.Alike R) frames frames') : Alike R ⟨phase, frames⟩ ⟨phase, frames'⟩

section Alike

variable {R : Json → Json → Prop} {frames frames' : List Frame}

theorem store_alike {j j' : Json} (value : R j j')
    (h : List.Forall₂ (Frame.Alike R) frames frames') :
    Alike R (store j frames) (store j' frames') := by
  cases h with
  | nil => exact .done value
  | cons frame h =>
      cases frame with
      | array items => exact .going (.cons (.array (.cons value items)) h)
      | object members => exact .going (.cons (.object (.cons ⟨rfl, value⟩ members)) h)

theorem alikeFrames_refl (hR : Congruence R) (frames : List Frame) :
    List.Forall₂ (Frame.Alike R) frames frames := by
  refine List.forall₂_same.2 fun frame _ => ?_
  cases frame with
  | array items => exact .array (List.forall₂_same.2 fun j _ => hR.refl j)
  | object members name =>
      exact .object (List.forall₂_same.2 fun member _ => ⟨rfl, hR.refl member.2⟩)

theorem open?_alike (h : List.Forall₂ (Frame.Alike R) frames frames') (c : Char) :
    Option.Rel (Alike R) (open? frames c) (open? frames' c) := by
  rw [open?.eq_def, open?.eq_def]
  split
  · exact .some (.going (.cons (.object .nil) h))
  · exact .some (.going (.cons (.array .nil) h))
  · exact .some (.going h)
  · exact .some (.going h)
  · exact .some (.going h)
  · exact .some (.going h)
  · cases NumberPart.start? _ with
    | none => exact .none
    | some part => exact .some (.going h)

variable (hR : Congruence R) (h : List.Forall₂ (Frame.Alike R) frames frames')

include hR h

theorem close?_alike (c : Char) :
    Option.Rel (Alike R) (close? frames c) (close? frames' c) := by
  by_cases bracket : c = ']'
  · subst bracket
    cases h with
    | nil => exact .none
    | cons frame h =>
        cases frame with
        | array items => exact .some (store_alike (hR.array (List.rel_reverse items)) h)
        | object members => exact .none
  by_cases brace : c = '}'
  · subst brace
    cases h with
    | nil => exact .none
    | cons frame h =>
        cases frame with
        | array items => exact .none
        | object members => exact .some (store_alike (hR.object (List.rel_reverse members)) h)
  rw [close?_of_ne frames bracket brace, close?_of_ne frames' bracket brace]
  exact .none

theorem between_alike (phase : Phase) (c : Char) :
    Option.Rel (Alike R) (between phase frames c) (between phase frames' c) := by
  rw [between.eq_def, between.eq_def]
  split
  · exact .some (.going h)
  cases phase with
  | value => exact open?_alike h c
  | firstItem =>
      dsimp only
      split
      · exact close?_alike hR h c
      · exact open?_alike h c
  | name =>
      dsimp only
      split
      · exact .some (.going h)
      · exact .none
  | firstName =>
      dsimp only
      split
      · exact .some (.going h)
      · exact close?_alike hR h c
  | colon =>
      dsimp only
      split
      · exact .some (.going h)
      · exact .none
  | separator =>
      dsimp only
      split
      · cases h with
        | nil => exact .none
        | cons frame h =>
            cases frame with
            | array items => exact .some (.going (.cons (.array items) h))
            | object members => exact .some (.going (.cons (.object members) h))
      · exact close?_alike hR h c
  | _ => exact .none

theorem storeString_alike (isName : Bool) (pieces : List Piece) :
    Option.Rel (Alike R) (storeString isName pieces frames)
      (storeString isName pieces frames') := by
  cases isName with
  | false => exact .some (store_alike (hR.refl _) h)
  | true =>
      cases h with
      | nil => exact .none
      | cons frame h =>
          cases frame with
          | array items => exact .none
          | object members => exact .some (.going (.cons (.object members) h))

theorem step_string_alike (isName : Bool) (pieces : List Piece) (phase : StringPhase)
    (c : Char) :
    Option.Rel (Alike R) ((⟨.string isName pieces phase, frames⟩ : Reader).step c)
      ((⟨.string isName pieces phase, frames'⟩ : Reader).step c) := by
  by_cases closing : phase = .plain ∧ c = '"'
  · obtain ⟨rfl, rfl⟩ := closing
    exact storeString_alike hR h isName pieces
  · rcases step_string pieces fun plain quote => closing ⟨plain, quote⟩ with none | ⟨_, _, some⟩
    · rw [none, none]
      exact .none
    · rw [some, some]
      exact .some (.going h)

omit h in
theorem step_store_alike {reader reader' : Reader} (h : Alike R reader reader')
    (c : Char) :
    Option.Rel (Alike R) (between reader.phase reader.frames c)
      (between reader'.phase reader'.frames c) := by
  cases h with
  | done value =>
      rw [between.eq_def, between.eq_def]
      split
      · exact .some (.done value)
      · exact .none
  | going h => exact between_alike hR h _ c

omit h in
/-- Alike readers take the same characters, and stay alike. -/
theorem step_alike {reader reader' : Reader} (h : Alike R reader reader') (c : Char) :
    Option.Rel (Alike R) (reader.step c) (reader'.step c) := by
  cases h with
  | done value => exact step_store_alike hR (.done value) c
  | @going phase frames frames' h =>
      cases phase with
      | string isName pieces phase => exact step_string_alike hR h isName pieces phase c
      | word rest j =>
          match rest with
          | [] => exact .none
          | [last] =>
              simp only [step]
              split
              · exact .some (store_alike (hR.refl j) h)
              · exact .none
          | next :: second :: rest =>
              simp only [step]
              split
              · exact .some (.going h)
              · exact .none
      | number part =>
          simp only [step]
          split
          · exact .some (.going h)
          · cases part.number? with
            | none => exact .none
            | some n => exact step_store_alike hR (store_alike (hR.refl _) h) c
      | _ => exact between_alike hR h _ c

omit h in
theorem finish_alike {reader reader' : Reader} (h : Alike R reader reader') :
    Option.Rel R reader.finish reader'.finish := by
  cases h with
  | done value => exact .some value
  | @going phase frames frames' h =>
      cases phase with
      | done j => exact .some (hR.refl j)
      | number part =>
          cases h with
          | nil =>
              simp only [finish]
              cases part.number? with
              | none => exact .none
              | some n => exact .some (hR.refl _)
          | cons frame h => exact .none
      | _ => exact .none

omit h in
/-- What alike readers find in the rest of a text is related. -/
theorem exists_result_of_alike {reader reader' : Reader} (h : Alike R reader reader')
    {rest : List Char} {j : Json} (hread : reader.result rest = some j) :
    ∃ j', reader'.result rest = some j' ∧ R j j' := by
  induction rest generalizing reader reader' with
  | nil => exact exists_of_rel_some (finish_alike hR h) hread
  | cons c rest ih =>
      obtain ⟨next, hnext, hread⟩ := result_cons_eq_some_iff.1 hread
      obtain ⟨next', hnext', alike⟩ := exists_of_rel_some (step_alike hR h c) hnext
      rw [result_cons_of_step hnext']
      exact ih alike hread

end Alike

/-! ## Objects in a text -/

/-- Outside of strings, a brace is the first character of a value. -/
theorem opening_of_step_brace {reader next : Reader} {scan : Scan}
    (follows : Follows reader scan) (outside : scan.phase = .outside)
    (h : reader.step '{' = some next) : Opening reader.phase := by
  obtain ⟨phase, frames⟩ := reader
  have hphase : phase.scanPhase = .outside := follows.phase.symm.trans outside
  cases phase with
  | value => exact .inl rfl
  | firstItem => exact .inr rfl
  | string isName pieces phase => cases phase <;> cases hphase
  | word rest j =>
      have neutral : ∀ c ∈ rest, c ≠ '{' := fun c hc => (follows.sound.1 c hc).2.1
      match rest with
      | [] => cases h
      | [last] =>
          simp only [step, if_neg (neutral last (by simp)).symm] at h
          cases h
      | next :: second :: rest =>
          simp only [step, if_neg (neutral next (by simp)).symm] at h
          cases h
  | number part =>
      have hread : part.read '{' = none := by
        cases hread : part.read '{' with
        | none => rfl
        | some part' => exact absurd rfl (isNeutral_of_read hread).2.1
      simp only [step, hread] at h
      obtain ⟨n, -, h⟩ := Option.bind_eq_some_iff.1 h
      cases frames with
      | nil => cases h
      | cons frame frames => cases frame <;> cases h
  | _ => cases h

end Reader

theorem objectText_eq_cons (ms : List Member) : ∃ cs, objectText ms = '{' :: cs := by
  cases ms with
  | nil => exact ⟨_, rfl⟩
  | cons m ms => exact ⟨_, rfl⟩

/-- Where an object is written in a text, outside of strings, one that is related to it may be
written, and the text is read as a related value. -/
theorem exists_read_objectText {R : Json → Json → Prop} (hR : Congruence R)
    {before rest : List Char} (outside : (before.foldl Scan.step {}).phase = .outside)
    {ms ms' : List Member}
    (related : R (.object (ms.map Member.entry)) (.object (ms'.map Member.entry))) {j : Json}
    (h : read (String.ofList (before ++ (objectText ms ++ rest))) = some j) :
    ∃ j', read (String.ofList (before ++ (objectText ms' ++ rest))) = some j' ∧ R j j' := by
  have parts : ∀ ms : List Member, read (String.ofList (before ++ (objectText ms ++ rest))) =
      (before.foldlM Reader.step Reader.start).bind (·.result (objectText ms ++ rest)) := by
    intro ms
    rw [read_ofList, Reader.result_append]
  rw [parts] at h ⊢
  obtain ⟨⟨phase, frames⟩, hreader, h⟩ := Option.bind_eq_some_iff.1 h
  have opening : Reader.Opening phase := by
    obtain ⟨cs, hcs⟩ := objectText_eq_cons ms
    rw [hcs, List.cons_append] at h
    obtain ⟨next, hnext, -⟩ := Reader.result_cons_eq_some_iff.1 h
    exact Reader.opening_of_step_brace (follows_start.foldl hreader) outside hnext
  rw [Reader.result_objectText ms opening] at h
  rw [hreader, Option.bind_some, Reader.result_objectText ms' opening]
  refine Reader.exists_result_of_alike hR (Reader.store_alike related ?_) h
  exact Reader.alikeFrames_refl hR frames

end Eligibility.Json
