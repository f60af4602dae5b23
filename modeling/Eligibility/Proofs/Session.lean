import Eligibility.Host.Session
import Eligibility.Proofs.Rendering
import Eligibility.Proofs.Wire

/-!
# Rules in a session

A caller may keep a rule that it has obtained, or send it around on the wire. What is
kept answers the same whatever becomes of the session. What is sent is obtained anew at
each request, under the configuration then in force, and gives the kept rule as long as
that admits its height.
-/

namespace Eligibility

/-- A rule that meets the limits on texts can be sent. -/
theorem Rule.Fits.sendable {config : Config} {r : Rule} (fits : r.Fits config) :
    r.Sendable config :=
  ⟨fits.expressible, Nat.le_trans r.height_le_length_leaves fits.conditions⟩

namespace Host

/-- A rule that is obtained can be sent under the same configuration, whether it comes
from texts or from the wire. -/
theorem Origin.sendable_of_obtain {config : Config} {origin : Origin} {x : Combination}
    (h : origin.obtain config = .ok x) : x.rule.Sendable config := by
  cases origin with
  | text rule =>
      obtain ⟨s, -, h⟩ := Except.bind_eq_ok_iff.1 h
      obtain ⟨r, hr, h⟩ := Except.bind_eq_ok_iff.1 h
      cases h
      exact (Rule.fits_of_ofText (Except.mapError_eq_ok_iff.1 hr)).sendable
  | texts rules connective =>
      obtain ⟨texts, -, h⟩ := Except.bind_eq_ok_iff.1 h
      obtain ⟨op, -, h⟩ := Except.bind_eq_ok_iff.1 h
      exact (Combination.fits_of_ofTexts (Except.mapError_eq_ok_iff.1 h)).sendable
  | wire rule =>
      obtain ⟨s, -, h⟩ := Except.bind_eq_ok_iff.1 h
      obtain ⟨r, hr, h⟩ := Except.bind_eq_ok_iff.1 h
      cases h
      exact Rule.sendable_of_ofWire (Except.mapError_eq_ok_iff.1 hr)

namespace Session

/-! ## What a step can do -/

/-- A session acts: it goes over to another one and gives an answer. -/
inductive Acts (session : Session) : Action → Session → Answer → Prop
  | configure {settings : Option Mapping} {config : Config}
      (asked : configOf settings = .ok config) :
      Acts session (.configure settings) { session with config := config, configured := true }
        .done
  | isConfigured : Acts session .isConfigured session (.verdict session.configured)
  | request {source : Source} {use : Use} {x : Combination} {answer : Answer}
      (obtained : session.obtain source = .ok x) (answered : use.answer x = .ok answer) :
      Acts session (.request source use) session answer

theorem act_eq_ok_iff {session acted : Session} {action : Action} {answer : Answer} :
    session.act action = .ok (acted, answer) ↔ session.Acts action acted answer := by
  constructor
  · intro h
    cases action with
    | configure settings =>
        obtain ⟨config, asked, h⟩ := Except.bind_eq_ok_iff.1 h
        cases h
        exact .configure asked
    | isConfigured =>
        cases h
        exact .isConfigured
    | request source use =>
        obtain ⟨x, obtained, h⟩ := Except.bind_eq_ok_iff.1 h
        obtain ⟨answer, answered, h⟩ := Except.bind_eq_ok_iff.1 h
        cases h
        exact .request obtained answered
  · intro acts
    cases acts with
    | configure asked => exact Except.bind_eq_ok_iff.2 ⟨_, asked, rfl⟩
    | isConfigured => rfl
    | request obtained answered =>
        exact Except.bind_eq_ok_iff.2 ⟨_, obtained, Except.bind_eq_ok_iff.2 ⟨_, answered, rfl⟩⟩

/-- A step that succeeds stores the answer where the session has got to. -/
theorem step_eq_ok_iff {session after : Session} {s : Step} {answer : Answer} :
    session.step s = (after, .ok answer) ↔
      ∃ acted, session.Acts s.action acted answer ∧ acted.store s.target answer = after := by
  constructor
  · intro h
    rw [step] at h
    split at h
    · next acted answer' hact =>
      cases h
      exact ⟨acted, act_eq_ok_iff.1 hact, rfl⟩
    · cases h
  · rintro ⟨acted, acts, rfl⟩
    rw [step, act_eq_ok_iff.2 acts]

/-- A step that fails leaves the session as it is. -/
theorem eq_of_step_eq_error {session after : Session} {s : Step} {fault : Fault}
    (h : session.step s = (after, .error fault)) : after = session := by
  rw [step] at h
  split at h
  · cases h
  · cases h
    rfl

@[simp] theorem config_store (session : Session) (target : Option String) (answer : Answer) :
    (session.store target answer).config = session.config := by
  cases target <;> rfl

/-! ## Answers -/

/-- The answer to a request that stores nothing. -/
def answer (session : Session) (source : Source) (use : Use) : Except Fault Answer :=
  (session.step ⟨.request source use, none⟩).2

theorem act_request (session : Session) (source : Source) (use : Use) :
    session.act (.request source use) =
      (session, ·) <$> (session.obtain source >>= use.answer) := by
  rw [act, map_bind]
  simp only [bind_pure_comp]

/-- What comes of a request does not depend on where the answer goes. -/
theorem outcome_step_request (session : Session) (source : Source) (use : Use)
    (target : Option String) :
    (session.step ⟨.request source use, target⟩).2 = session.obtain source >>= use.answer := by
  rw [step]
  dsimp only
  rw [act_request]
  cases session.obtain source >>= use.answer <;> rfl

theorem answer_eq (session : Session) (source : Source) (use : Use) :
    session.answer source use = session.obtain source >>= use.answer :=
  session.outcome_step_request source use none

theorem answer_of_obtain_eq_ok {session : Session} {source : Source} {x : Combination}
    (h : session.obtain source = .ok x) (use : Use) :
    session.answer source use = use.answer x := by
  rw [answer_eq, h]
  rfl

theorem answer_of_obtain_eq_error {session : Session} {source : Source} {fault : Fault}
    (h : session.obtain source = .error fault) (use : Use) :
    session.answer source use = .error fault := by
  rw [answer_eq, h]
  rfl

/-- A rule in a slot answers for itself, whatever the configuration. -/
theorem answer_slot {session : Session} {slot : String} {x : Combination}
    (h : session.stored slot = .ok (.rule x)) (use : Use) :
    session.answer (.slot slot) use = use.answer x := by
  have obtained : session.obtain (.slot slot) = .ok x := by
    rw [obtain, h]
    rfl
  exact answer_of_obtain_eq_ok obtained use

theorem obtain_wire_eq_ok {session : Session} {text : String} {r : Rule}
    (h : Rule.ofWire session.config text = .ok r) :
    session.obtain (.given (.wire (.text text))) = .ok ⟨r, []⟩ := by
  change (Except.mapError Fault.wire (Rule.ofWire session.config text)).bind _ = _
  rw [h]
  rfl

theorem obtain_wire_eq_error {session : Session} {text : String} {e : WireError}
    (h : Rule.ofWire session.config text = .error e) :
    session.obtain (.given (.wire (.text text))) = .error (.wire e) := by
  change (Except.mapError Fault.wire (Rule.ofWire session.config text)).bind _ = _
  rw [h]
  rfl

/-- A rule that is sent judges as it does in a slot where its height is admitted. -/
theorem answer_wire_of_le {session : Session} {x : Combination}
    (low : x.rule.height ≤ session.config.maxConditions)
    (expressible : ∀ c ∈ x.rule.leaves, c.expressible = true) (attributes : Mapping) :
    session.answer (.given (.wire (.text x.rule.toWire))) (.judge attributes) =
      (Use.judge attributes).answer x := by
  have obtained := obtain_wire_eq_ok (Rule.ofWire_toWire_of_le low expressible)
  exact answer_of_obtain_eq_ok obtained (.judge attributes)

theorem answer_wire_of_lt {session : Session} {r : Rule}
    (high : session.config.maxConditions < r.height) (use : Use) :
    session.answer (.given (.wire (.text r.toWire))) use =
      .error (.wire (.nested session.config.maxConditions)) :=
  answer_of_obtain_eq_error (obtain_wire_eq_error (Rule.ofWire_toWire_of_lt high)) use

/-! ## Slots -/

theorem stored_store_self (session : Session) (slot : String) (answer : Answer) :
    (session.store (some slot) answer).stored slot = .ok answer := by
  rw [stored, store]
  dsimp only
  rw [List.lookup_cons_self]

theorem stored_store_of_ne (session : Session) {target : Option String} {slot : String}
    (ne : target ≠ some slot) (answer : Answer) :
    (session.store target answer).stored slot = session.stored slot := by
  cases target with
  | none => rfl
  | some name =>
      have other : (slot == name) = false := by
        rw [beq_eq_false_iff_ne]
        rintro rfl
        exact ne rfl
      rw [stored, stored, store]
      dsimp only
      rw [List.lookup_cons, other]

theorem Acts.slots_eq {session acted : Session} {action : Action} {answer : Answer}
    (acts : session.Acts action acted answer) : acted.slots = session.slots := by
  cases acts <;> rfl

/-- A step leaves alone every slot but its target. -/
theorem stored_step_of_ne (session : Session) {s : Step} {slot : String}
    (ne : s.target ≠ some slot) : (session.step s).1.stored slot = session.stored slot := by
  rcases hstep : session.step s with ⟨after, outcome⟩
  cases outcome with
  | error fault => rw [eq_of_step_eq_error hstep]
  | ok answer =>
      obtain ⟨acted, acts, rfl⟩ := step_eq_ok_iff.1 hstep
      rw [stored_store_of_ne acted ne, stored, stored, acts.slots_eq]

/-- A run leaves alone every slot that none of its steps has for a target. -/
theorem stored_run_of_ne (session : Session) {steps : List Step} {slot : String}
    (ne : ∀ s ∈ steps, s.target ≠ some slot) :
    (session.run steps).1.stored slot = session.stored slot := by
  induction steps generalizing session with
  | nil => rfl
  | cons first rest ih =>
      have hfirst := stored_step_of_ne session (ne first List.mem_cons_self)
      have hrest := ih (session.step first).1 fun s hs => ne s (List.mem_cons_of_mem first hs)
      exact hrest.trans hfirst

/-! ## Kept and sent -/

theorem of_step_keep {session kept : Session} {origin : Origin} {slot : String}
    {x : Combination}
    (h : session.step ⟨.request (.given origin) .keep, some slot⟩ = (kept, .ok (.rule x))) :
    origin.obtain session.config = .ok x ∧ kept = session.store (some slot) (.rule x) := by
  obtain ⟨acted, acts, rfl⟩ := step_eq_ok_iff.1 h
  cases acts with
  | request obtained answered =>
      cases answered
      exact ⟨obtained, rfl⟩

/-- A rule that a caller keeps has the same wire form as the one that it could have
sent instead. Later, under whatever configuration, the kept rule answers as it did at
once, and what is sent judges as the kept rule does or nests too deep, which depends on
the height of the rule alone. -/
theorem answer_wire_of_keep (session kept : Session) (origin : Origin) (slot : String)
    (x : Combination) (later : List Step)
    (keep : session.step ⟨.request (.given origin) .keep, some slot⟩ = (kept, .ok (.rule x))) :
    ∃ sent : String,
      session.answer (.given origin) .wire = .ok (.text sent) ∧
      kept.answer (.slot slot) .wire = .ok (.text sent) ∧
      x.rule.height ≤ session.config.maxConditions ∧
      ((∀ s ∈ later, s.target ≠ some slot) →
        (kept.run later).1.stored slot = .ok (.rule x)) ∧
      ∀ holder : String, (kept.run later).1.stored holder = .ok (.rule x) →
        (∀ use, (kept.run later).1.answer (.slot holder) use = kept.answer (.slot slot) use) ∧
        ∀ attributes : Mapping,
          (x.rule.height ≤ (kept.run later).1.config.maxConditions →
            (kept.run later).1.answer (.given (.wire (.text sent))) (.judge attributes) =
              (kept.run later).1.answer (.slot holder) (.judge attributes)) ∧
          ((kept.run later).1.config.maxConditions < x.rule.height →
            ∃ fault : Fault,
              (kept.run later).1.answer (.given (.wire (.text sent))) (.judge attributes) =
                .error fault ∧
              fault.kind = .badValue ∧
              fault.message? = some ("Evaluation error: malformed AST: nested deeper than " ++
                toString (kept.run later).1.config.maxConditions ++ " levels")) := by
  obtain ⟨hobtain, rfl⟩ := of_step_keep keep
  have sendable := Origin.sendable_of_obtain hobtain
  have hslot := stored_store_self session slot (.rule x)
  have obtained : session.obtain (.given origin) = .ok x := hobtain
  refine ⟨x.rule.toWire, answer_of_obtain_eq_ok obtained .wire, answer_slot hslot .wire,
    sendable.height, ?_, ?_⟩
  · intro ne
    rw [stored_run_of_ne _ ne, hslot]
  · intro holder hholder
    refine ⟨?_, ?_⟩
    · intro use
      rw [answer_slot hholder, answer_slot hslot]
    · intro attributes
      refine ⟨?_, ?_⟩
      · intro low
        rw [answer_wire_of_le low sendable.expressible, answer_slot hholder]
      · intro high
        exact ⟨_, answer_wire_of_lt high _, rfl, rfl⟩

/-- Two conditions are kept. -/
def keptPair : Session := { slots := [("rule", .rule ⟨.paired, []⟩)] }

/-- One condition is admitted afterwards. -/
def lowered : List Step := [⟨.configure (some [(some "max_conditions", .integer 1)]), none⟩]

theorem answer_wire_of_keep_lowered :
    ({} : Session).step ⟨.request (.given (.text (.text "a > 1 AND b > 2"))) .keep,
        some "rule"⟩ = (keptPair, .ok (.rule ⟨.paired, []⟩)) ∧
      (keptPair.run lowered).1.stored "rule" = .ok (.rule ⟨.paired, []⟩) ∧
      (keptPair.run lowered).1.config.maxConditions < Rule.paired.height ∧
      ∃ (sent : String) (fault : Fault),
        keptPair.answer (.slot "rule") .wire = .ok (.text sent) ∧
        (keptPair.run lowered).1.answer (.given (.wire (.text sent))) (.judge []) =
          .error fault ∧
        fault.message? = some ("Evaluation error: malformed AST: nested deeper than " ++
          toString (keptPair.run lowered).1.config.maxConditions ++ " levels") ∧
        ∀ use, (keptPair.run lowered).1.answer (.slot "rule") use =
          keptPair.answer (.slot "rule") use := by
  have keep : ({} : Session).step ⟨.request (.given (.text (.text "a > 1 AND b > 2"))) .keep,
      some "rule"⟩ = (keptPair, .ok (.rule ⟨.paired, []⟩)) := by decide +kernel
  have high : (keptPair.run lowered).1.config.maxConditions < Rule.paired.height := by
    decide +kernel
  have elsewhere : ∀ s ∈ lowered, s.target ≠ some "rule" := by simp [lowered]
  obtain ⟨sent, -, hwire, -, hstored, hlater⟩ := answer_wire_of_keep {} keptPair
    (.text (.text "a > 1 AND b > 2")) "rule" ⟨.paired, []⟩ lowered keep
  obtain ⟨hsame, hjudge⟩ := hlater "rule" (hstored elsewhere)
  obtain ⟨fault, hfault, -, hmessage⟩ := (hjudge []).2 high
  exact ⟨keep, hstored elsewhere, high, sent, fault, hwire, hfault, hmessage, hsame⟩

end Session

end Host

end Eligibility
