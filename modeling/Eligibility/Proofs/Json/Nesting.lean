import Eligibility.Json.Nesting
import Eligibility.Proofs.Json.RoundTrip

/-!
# The nesting of a text and the depth of its value

A scan looks at brackets and quotes alone, and so it can be fooled by a text that is
no JSON. Of a text that is, it finds how deep the value is (`nesting_eq_depth`).

Reader and scan go through the text side by side (`Follows`): the scan counts the
containers that the reader has open, and has seen as many at a time as the values in
them make up.
-/

namespace Eligibility.Json

/-! ## Depth -/

/-- The depth of what has been read of a container. -/
def Frame.depth : Frame → Nat
  | array items => depthOfItems items
  | object members _ => depthOfMembers members

/-- The most containers that have been open at a time, if these are open now. -/
def depthOfFrames : List Frame → Nat
  | [] => 0
  | frame :: frames => max (depthOfFrames frames) (frames.length + 1 + frame.depth)

theorem length_le_depthOfFrames (frames : List Frame) :
    frames.length ≤ depthOfFrames frames := by
  cases frames with
  | nil => exact Nat.le_refl 0
  | cons frame frames =>
      rw [depthOfFrames, List.length_cons]
      omega

theorem depthOfItems_append (first second : List Json) :
    depthOfItems (first ++ second) = max (depthOfItems first) (depthOfItems second) := by
  induction first with
  | nil => exact (Nat.zero_max _).symm
  | cons item items ih => rw [List.cons_append, depthOfItems, depthOfItems, ih, Nat.max_assoc]

theorem depthOfItems_reverse (items : List Json) :
    depthOfItems items.reverse = depthOfItems items := by
  induction items with
  | nil => rfl
  | cons item items ih =>
      rw [List.reverse_cons, depthOfItems_append, ih, depthOfItems, depthOfItems, depthOfItems,
        Nat.max_zero, Nat.max_comm]

theorem depthOfMembers_eq (members : List (Option String × Json)) :
    depthOfMembers members = depthOfItems (members.map (·.2)) := by
  induction members with
  | nil => rfl
  | cons member members ih => rw [depthOfMembers, ih, List.map_cons, depthOfItems]

theorem depthOfMembers_reverse (members : List (Option String × Json)) :
    depthOfMembers members.reverse = depthOfMembers members := by
  rw [depthOfMembers_eq, List.map_reverse, depthOfItems_reverse, depthOfMembers_eq]

/-! ## Characters that a scan passes over -/

/-- Outside of strings a scan passes over the character. -/
def IsNeutral (c : Char) : Prop :=
  c ≠ '"' ∧ c ≠ '{' ∧ c ≠ '[' ∧ c ≠ '}' ∧ c ≠ ']'

instance (c : Char) : Decidable (IsNeutral c) :=
  inferInstanceAs (Decidable (_ ∧ _))

theorem Scan.step_of_isNeutral {scan : Scan} {c : Char} (outside : scan.phase = .outside)
    (neutral : IsNeutral c) : scan.step c = scan := by
  obtain ⟨quote, brace, bracket, brace', bracket'⟩ := neutral
  simp only [step, outside, quote, brace, bracket, brace', bracket', if_false, or_self]

theorem Scan.step_opening {scan : Scan} {c : Char} (outside : scan.phase = .outside)
    (h : c = '{' ∨ c = '[') :
    scan.step c =
      { scan with depth := scan.depth + 1, deepest := max scan.deepest (scan.depth + 1) } := by
  have ne : c ≠ '"' := by
    rcases h with rfl | rfl
    all_goals decide
  simp only [step, outside, if_neg ne, if_pos h]

theorem Scan.step_closing {scan : Scan} {c : Char} (outside : scan.phase = .outside)
    (h : c = '}' ∨ c = ']') : scan.step c = { scan with depth := scan.depth - 1 } := by
  rcases h with rfl | rfl
  all_goals simp [step, outside]

theorem Scan.step_inside {scan : Scan} {c : Char} (inside : scan.phase = .inside)
    (quote : c ≠ '"') (backslash : c ≠ '\\') : scan.step c = scan := by
  simp only [step, inside, if_neg backslash, if_neg quote]

theorem isNeutral_of_isSpace {c : Char} (h : isSpace c = true) : IsNeutral c := by
  simp only [isSpace, Bool.or_eq_true, decide_eq_true_eq] at h
  rcases h with ((rfl | rfl) | rfl) | rfl
  all_goals decide

theorem isNeutral_of_start? {c : Char} {part : NumberPart}
    (h : NumberPart.start? c = some part) : IsNeutral c := by
  refine ⟨?_, ?_, ?_, ?_, ?_⟩
  all_goals
    rintro rfl
    cases h

theorem isNeutral_of_read {c : Char} {part part' : NumberPart}
    (h : part.read c = some part') : IsNeutral c := by
  obtain ⟨phase, _, _, _, _, _⟩ := part
  refine ⟨?_, ?_, ?_, ?_, ?_⟩
  all_goals
    rintro rfl
    cases phase <;> cases h

/-! ## Reader and scan side by side -/

/-- Where a scan is when the reader is here. -/
def Phase.scanPhase : Phase → ScanPhase
  | string _ _ .escape => .escape
  | string _ _ _ => .inside
  | _ => .outside

/-- The depth of the value that is finished, if it is. -/
def Phase.depth : Phase → Nat
  | done j => j.depth
  | _ => 0

/-- What the reader is in the middle of is possible: a text has ended only where no
container is open, and the words that stand for values hold neither brackets nor
quotes. -/
def Phase.IsSound : Phase → List Frame → Prop
  | done _, frames => frames = []
  | word rest j, _ => (∀ c ∈ rest, IsNeutral c) ∧ j.depth = 0
  | _, _ => True

/-- The scan has passed over what the reader has read. -/
structure Follows (reader : Reader) (scan : Scan) : Prop where
  phase : scan.phase = reader.phase.scanPhase
  depth : scan.depth = reader.frames.length
  deepest : scan.deepest = max (depthOfFrames reader.frames) reader.phase.depth
  sound : reader.phase.IsSound reader.frames

theorem follows_start : Follows Reader.start {} :=
  ⟨rfl, rfl, rfl, trivial⟩

/-- A value that has ended leaves the scan outside, where its depth has been seen. -/
theorem follows_store {j : Json} {frames : List Frame} {scan : Scan}
    (phase : scan.phase = .outside) (depth : scan.depth = frames.length)
    (deepest : scan.deepest = max (depthOfFrames frames) (frames.length + j.depth)) :
    Follows (Reader.store j frames) scan := by
  cases frames with
  | nil =>
      refine ⟨phase, depth, ?_, rfl⟩
      rw [deepest, List.length_nil, Nat.zero_add]
      rfl
  | cons frame frames =>
      cases frame with
      | array items =>
          refine ⟨phase, depth, ?_, trivial⟩
          simp only [Reader.store, depthOfFrames, Frame.depth, depthOfItems, Phase.depth,
            List.length_cons] at deepest ⊢
          omega
      | object members name =>
          refine ⟨phase, depth, ?_, trivial⟩
          simp only [Reader.store, depthOfFrames, Frame.depth, depthOfMembers, Phase.depth,
            List.length_cons] at deepest ⊢
          omega

/-- A value without containers adds nothing. -/
theorem follows_store_of_depth_eq_zero {j : Json} {frames : List Frame} {scan : Scan}
    (flat : j.depth = 0) (phase : scan.phase = .outside) (depth : scan.depth = frames.length)
    (deepest : scan.deepest = depthOfFrames frames) :
    Follows (Reader.store j frames) scan := by
  refine follows_store phase depth ?_
  rw [deepest, flat, Nat.add_zero]
  exact (Nat.max_eq_left (length_le_depthOfFrames frames)).symm

section Between

variable {frames : List Frame} {scan : Scan} {c : Char} {reader : Reader}
  (outside : scan.phase = .outside) (depth : scan.depth = frames.length)
  (deepest : scan.deepest = depthOfFrames frames)

include outside depth deepest

theorem follows_quote (isName : Bool) :
    Follows ⟨.string isName [] .plain, frames⟩ (scan.step '"') := by
  rw [Scan.step, outside]
  exact ⟨rfl, depth, deepest.trans (Nat.max_zero _).symm, trivial⟩

theorem follows_push {frame : Frame} {phase : Phase} (empty : frame.depth = 0)
    (hphase : phase = .firstName ∨ phase = .firstItem) (h : c = '{' ∨ c = '[') :
    Follows ⟨phase, frame :: frames⟩ (scan.step c) := by
  rw [Scan.step_opening outside h]
  have flat : phase.depth = 0 ∧ phase.scanPhase = .outside ∧
      phase.IsSound (frame :: frames) := by
    rcases hphase with rfl | rfl
    all_goals exact ⟨rfl, rfl, trivial⟩
  obtain ⟨none, hscan, sound⟩ := flat
  refine ⟨outside.trans hscan.symm, ?_, ?_, sound⟩
  · exact congrArg (· + 1) depth
  · change max scan.deepest (scan.depth + 1) =
      max (max (depthOfFrames frames) (frames.length + 1 + frame.depth)) phase.depth
    rw [deepest, depth, empty, none, Nat.add_zero, Nat.max_zero]

theorem follows_open? (h : Reader.open? frames c = some reader) :
    Follows reader (scan.step c) := by
  have flat : max (depthOfFrames frames) 0 = depthOfFrames frames := Nat.max_zero _
  rw [Reader.open?.eq_def] at h
  split at h
  · cases h
    exact follows_push outside depth deepest rfl (.inl rfl) (.inl rfl)
  · cases h
    exact follows_push outside depth deepest rfl (.inr rfl) (.inr rfl)
  · cases h
    exact follows_quote outside depth deepest false
  · cases h
    rw [Scan.step_of_isNeutral outside (by decide)]
    exact ⟨outside, depth, deepest.trans flat.symm, by simp [IsNeutral], rfl⟩
  · cases h
    rw [Scan.step_of_isNeutral outside (by decide)]
    exact ⟨outside, depth, deepest.trans flat.symm, by simp [IsNeutral], rfl⟩
  · cases h
    rw [Scan.step_of_isNeutral outside (by decide)]
    exact ⟨outside, depth, deepest.trans flat.symm, by simp [IsNeutral], rfl⟩
  · obtain ⟨part, hpart, rfl⟩ := Option.map_eq_some_iff.1 h
    rw [Scan.step_of_isNeutral outside (isNeutral_of_start? hpart)]
    exact ⟨outside, depth, deepest.trans flat.symm, trivial⟩

theorem follows_close? (h : Reader.close? frames c = some reader) :
    Follows reader (scan.step c) := by
  rw [Reader.close?.eq_def] at h
  split at h
  · next items frames =>
    cases h
    rw [Scan.step_closing outside (.inr rfl)]
    refine follows_store outside ?_ ?_
    · rw [depth]
      rfl
    · rw [deepest, depthOfFrames, Frame.depth, Json.depth, depthOfItems_reverse]
      omega
  · next members name frames =>
    cases h
    rw [Scan.step_closing outside (.inl rfl)]
    refine follows_store outside ?_ ?_
    · rw [depth]
      rfl
    · rw [deepest, depthOfFrames, Frame.depth, Json.depth, depthOfMembers_reverse]
      omega
  · cases h

end Between

section Step

variable {frames : List Frame} {scan : Scan} {c : Char} {reader : Reader}

theorem follows_between {phase : Phase} (h : Follows ⟨phase, frames⟩ scan)
    (outside : phase.scanPhase = .outside)
    (hread : Reader.between phase frames c = some reader) : Follows reader (scan.step c) := by
  have hout : scan.phase = .outside := h.phase.trans outside
  have flat : max (depthOfFrames frames) 0 = depthOfFrames frames := Nat.max_zero _
  by_cases space : isSpace c = true
  · rw [Reader.between.eq_def, if_pos space] at hread
    cases hread
    rw [Scan.step_of_isNeutral hout (isNeutral_of_isSpace space)]
    exact h
  rw [Reader.between.eq_def, if_neg space] at hread
  cases phase with
  | value => exact follows_open? hout h.depth (h.deepest.trans flat) hread
  | firstItem =>
      dsimp only at hread
      split at hread
      · exact follows_close? hout h.depth (h.deepest.trans flat) hread
      · exact follows_open? hout h.depth (h.deepest.trans flat) hread
  | name =>
      dsimp only at hread
      split at hread
      · next quote =>
        cases hread
        rw [quote]
        exact follows_quote hout h.depth (h.deepest.trans flat) true
      · cases hread
  | firstName =>
      dsimp only at hread
      split at hread
      · next quote =>
        cases hread
        rw [quote]
        exact follows_quote hout h.depth (h.deepest.trans flat) true
      · exact follows_close? hout h.depth (h.deepest.trans flat) hread
  | colon =>
      dsimp only at hread
      split at hread
      · next colon =>
        cases hread
        rw [colon, Scan.step_of_isNeutral hout (by decide)]
        exact ⟨hout, h.depth, h.deepest, trivial⟩
      · cases hread
  | separator =>
      dsimp only at hread
      split at hread
      · next comma =>
        rw [comma, Scan.step_of_isNeutral hout (by decide)]
        split at hread
        · cases hread
          exact ⟨hout, h.depth, h.deepest, trivial⟩
        · cases hread
          exact ⟨hout, h.depth, h.deepest, trivial⟩
        · cases hread
      · exact follows_close? hout h.depth (h.deepest.trans flat) hread
  | _ => cases hread

theorem follows_storeString {isName : Bool} {pieces : List Piece}
    (outside : scan.phase = .outside) (depth : scan.depth = frames.length)
    (deepest : scan.deepest = depthOfFrames frames)
    (hread : Reader.storeString isName pieces frames = some reader) : Follows reader scan := by
  rw [Reader.storeString.eq_def] at hread
  dsimp only at hread
  split at hread
  · split at hread
    · cases hread
      exact ⟨outside, depth, deepest.trans (Nat.max_zero _).symm, trivial⟩
    · cases hread
  · cases hread
    exact follows_store_of_depth_eq_zero rfl outside depth deepest

/-- Inside of a string, a scan is fooled neither by brackets nor by escapes. -/
theorem follows_inString {isName : Bool} {pieces : List Piece} {phase : StringPhase}
    (h : Follows ⟨.string isName pieces phase, frames⟩ scan)
    (hread : Reader.inString isName pieces phase frames c = some reader) :
    Follows reader (scan.step c) := by
  obtain ⟨hphase, depth, deepest, -⟩ := h
  cases phase with
  | plain =>
      change scan.phase = .inside at hphase
      simp only [Reader.inString] at hread
      split at hread
      · next quote =>
        rw [quote, Scan.step, hphase]
        exact follows_storeString rfl depth (deepest.trans (Nat.max_zero _)) hread
      · next quote =>
        split at hread
        · next backslash =>
          cases hread
          rw [backslash, Scan.step, hphase]
          exact ⟨rfl, depth, deepest, trivial⟩
        · next backslash =>
          split at hread
          · cases hread
          · cases hread
            rw [Scan.step_inside hphase quote backslash]
            exact ⟨hphase, depth, deepest, trivial⟩
  | escape =>
      change scan.phase = .escape at hphase
      have inside : scan.step c = { scan with phase := .inside } := by
        simp only [Scan.step, hphase]
      rw [inside]
      simp only [Reader.inString] at hread
      split at hread
      · cases hread
        exact ⟨rfl, depth, deepest, trivial⟩
      · obtain ⟨c', -, rfl⟩ := Option.map_eq_some_iff.1 hread
        exact ⟨rfl, depth, deepest, trivial⟩
  | unit count u =>
      change scan.phase = .inside at hphase
      simp only [Reader.inString] at hread
      obtain ⟨d, hd, rfl⟩ := Option.map_eq_some_iff.1 hread
      have backslash : c ≠ '\\' := by
        rintro rfl
        cases hd
      have quote : c ≠ '"' := by
        rintro rfl
        cases hd
      rw [Scan.step_inside hphase quote backslash]
      split
      · exact ⟨hphase, depth, deepest, trivial⟩
      · exact ⟨hphase, depth, deepest, trivial⟩

/-- The scan follows the reader over each character. -/
theorem Follows.step {phase : Phase} (h : Follows ⟨phase, frames⟩ scan)
    (hread : Reader.step ⟨phase, frames⟩ c = some reader) : Follows reader (scan.step c) := by
  cases phase with
  | string isName pieces phase => exact follows_inString h hread
  | word rest j =>
      obtain ⟨hphase, depth, deepest, neutral, flat⟩ := h
      have stay : ∀ next ∈ rest, c = next → scan.step c = scan := by
        rintro next hnext rfl
        exact Scan.step_of_isNeutral hphase (neutral c hnext)
      match rest with
      | [] => cases hread
      | [last] =>
          simp only [Reader.step] at hread
          split at hread
          · next hlast =>
            cases hread
            rw [stay last List.mem_cons_self hlast]
            exact follows_store_of_depth_eq_zero flat hphase depth
              (deepest.trans (Nat.max_zero _))
          · cases hread
      | next :: second :: rest =>
          simp only [Reader.step] at hread
          split at hread
          · next hnext =>
            cases hread
            rw [stay next List.mem_cons_self hnext]
            exact ⟨hphase, depth, deepest, fun c hc => neutral c (List.mem_cons_of_mem _ hc), flat⟩
          · cases hread
  | number part =>
      simp only [Reader.step] at hread
      split at hread
      · next part' hpart =>
        cases hread
        rw [Scan.step_of_isNeutral h.phase (isNeutral_of_read hpart)]
        exact ⟨h.phase, h.depth, h.deepest, trivial⟩
      · -- the number is stored before the character is read
        obtain ⟨n, -, hread⟩ := Option.bind_eq_some_iff.1 hread
        have stored : Follows (Reader.store (.number n) frames) scan :=
          follows_store_of_depth_eq_zero rfl h.phase h.depth (h.deepest.trans (Nat.max_zero _))
        refine follows_between stored ?_ hread
        exact stored.phase.symm.trans h.phase
  | _ => exact follows_between h rfl hread

end Step

theorem Follows.foldl {reader last : Reader} {scan : Scan} (h : Follows reader scan)
    {cs : List Char} (hread : cs.foldlM Reader.step reader = some last) :
    Follows last (cs.foldl Scan.step scan) := by
  induction cs generalizing reader scan with
  | nil =>
      cases hread
      exact h
  | cons c cs ih =>
      rw [List.foldlM_cons] at hread
      obtain ⟨next, hnext, hread⟩ := Option.bind_eq_some_iff.1 hread
      exact ih (h.step hnext) hread

theorem nesting_ofList (cs : List Char) :
    nesting (String.ofList cs) = (cs.foldl Scan.step {}).deepest := by
  rw [nesting, String.toList_ofList]

/-- The nesting of a text that denotes a value is the depth of the value. -/
theorem nesting_eq_depth {text : String} {j : Json} (h : read text = some j) :
    nesting text = j.depth := by
  obtain ⟨last, hread, hfinish⟩ := Option.bind_eq_some_iff.1 h
  obtain ⟨phase, depth, deepest, sound⟩ := follows_start.foldl hread
  rw [nesting, deepest]
  rw [Reader.finish.eq_def] at hfinish
  split at hfinish
  · next j' hphase =>
    cases hfinish
    rw [hphase] at sound ⊢
    rw [show last.frames = [] from sound]
    exact Nat.zero_max _
  · next part hphase hframes =>
    obtain ⟨n, -, rfl⟩ := Option.map_eq_some_iff.1 hfinish
    rw [hphase, hframes]
    rfl
  · cases hfinish

theorem nesting_write (j : Json) : nesting j.write = j.depth :=
  nesting_eq_depth (read_write j)

end Eligibility.Json
