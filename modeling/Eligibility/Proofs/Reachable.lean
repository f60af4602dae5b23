import Eligibility.Proofs.Session
import Eligibility.Proofs.Settings

/-!
# Where steps lead

Whatever steps a session takes, its configuration is in range, and so are the rules in its
slots (`Sound`). A rule that a request is about comes from a text, from several texts, from
the wire or out of a slot. The first three are limited by the configuration in force; the
last was, when it was stored, and of the configuration since replaced what remains is the
ceiling on conditions (`Rule.Admitted`).

The configuration is replaced only by one that settings ask for, with nothing in it of the
one before. From then on the session knows that it was configured.
-/

namespace Eligibility

/-- What every rule in a session is, whatever configuration it was obtained under. -/
structure Rule.Admitted (r : Rule) : Prop where
  expressible : ∀ c ∈ r.leaves, c.expressible = true
  height : r.height ≤ conditionsCeiling

theorem Rule.Sendable.admitted {config : Config} {r : Rule} (sendable : r.Sendable config)
    (valid : config.Valid) : r.Admitted :=
  ⟨sendable.expressible, Nat.le_trans sendable.height valid.ceiling⟩

namespace Host

/-- An answer that is a rule is the rule that was put to use. -/
theorem Use.eq_of_answer_eq_rule {x y : Combination} {use : Use}
    (h : use.answer x = .ok (.rule y)) : y = x := by
  cases use with
  | keep =>
      cases h
      rfl
  | judge attributes =>
      obtain ⟨record, -, h⟩ := Except.bind_eq_ok_iff.1 h
      obtain ⟨verdict, -, h⟩ := Except.bind_eq_ok_iff.1 h
      cases h
  | judgeAll records =>
      obtain ⟨verdicts, -, h⟩ := Except.bind_eq_ok_iff.1 h
      cases h
  | _ => cases h

namespace Session

/-! ## The configuration -/

/-- The configuration that settings ask for: the defaults if there are none. -/
def Asks : Option Mapping → Config → Prop
  | none, config => config = {}
  | some settings, config => settings.Overlays config

theorem configOf_eq_ok_iff {settings : Option Mapping} {config : Config} :
    configOf settings = .ok config ↔ Asks settings config ∧ config.Valid := by
  cases settings with
  | none =>
      rw [configOf, Asks]
      constructor
      · rintro ⟨⟩
        exact ⟨rfl, Config.valid_default⟩
      · rintro ⟨rfl, -⟩
        rfl
  | some settings => exact Mapping.toConfig_eq_ok_iff

theorem step_configure (session : Session) {settings : Option Mapping} {config : Config}
    (asked : configOf settings = .ok config) (target : Option String) :
    session.step ⟨.configure settings, target⟩ =
      ({ session with config := config, configured := true }.store target .done, .ok .done) :=
  step_eq_ok_iff.2 ⟨_, .configure asked, rfl⟩

theorem config_eq_of_step_configure {session after : Session} {settings : Option Mapping}
    {target : Option String} {answer : Answer}
    (h : session.step ⟨.configure settings, target⟩ = (after, .ok answer)) :
    configOf settings = .ok after.config := by
  obtain ⟨acted, acts, rfl⟩ := step_eq_ok_iff.1 h
  rw [config_store]
  cases acts with
  | configure asked => exact asked

/-- Only a configuring step changes the configuration. -/
theorem config_eq_of_step {session after : Session} {s : Step} {outcome : Except Fault Answer}
    (other : ∀ settings, s.action ≠ .configure settings)
    (h : session.step s = (after, outcome)) : after.config = session.config := by
  cases outcome with
  | error fault => rw [eq_of_step_eq_error h]
  | ok answer =>
      obtain ⟨acted, acts, rfl⟩ := step_eq_ok_iff.1 h
      rw [config_store]
      generalize s.action = action at acts other
      cases acts with
      | configure asked => exact absurd rfl (other _)
      | isConfigured => rfl
      | request obtained answered => rfl

/-! ## Whether a configuration was installed -/

/-- A step that asks for a configuration in range. It does so in every session. -/
def Installs (s : Step) : Prop :=
  ∃ settings config, s.action = .configure settings ∧ Asks settings config ∧ config.Valid

@[simp] theorem configured_store (session : Session) (target : Option String)
    (answer : Answer) : (session.store target answer).configured = session.configured := by
  cases target <;> rfl

theorem configured_step_iff (session : Session) (s : Step) :
    (session.step s).1.configured = true ↔ session.configured = true ∨ Installs s := by
  obtain ⟨action, target⟩ := s
  rcases hstep : session.step ⟨action, target⟩ with ⟨after, outcome⟩
  cases outcome with
  | error fault =>
      rw [eq_of_step_eq_error hstep]
      have fails : ¬Installs ⟨action, target⟩ := by
        rintro ⟨settings, config, rfl, asked⟩
        rw [session.step_configure (configOf_eq_ok_iff.2 asked)] at hstep
        cases hstep
      exact (or_iff_left fails).symm
  | ok answer =>
      obtain ⟨acted, acts, rfl⟩ := step_eq_ok_iff.1 hstep
      rw [configured_store]
      cases acts with
      | configure asked =>
          exact iff_of_true rfl (.inr ⟨_, _, rfl, configOf_eq_ok_iff.1 asked⟩)
      | _ => exact (or_iff_left fun ⟨_, _, other, _⟩ => nomatch other).symm

theorem configured_run_iff (session : Session) (steps : List Step) :
    (session.run steps).1.configured = true ↔
      session.configured = true ∨ ∃ s ∈ steps, Installs s := by
  induction steps generalizing session with
  | nil => simp [run]
  | cons first rest ih =>
      simp only [List.mem_cons, exists_eq_or_imp]
      rw [← or_assoc, ← configured_step_iff]
      exact ih (session.step first).1

/-- Asked whether a configuration has been installed, a session that began with none says
yes exactly if one of its steps has installed one. -/
theorem outcome_isConfigured_after_run (before : List Step) (target : Option String) :
    ((({} : Session).run before).1.step ⟨.isConfigured, target⟩).2 = .ok (.verdict true) ↔
      ∃ s ∈ before, Installs s := by
  have answered : ((({} : Session).run before).1.step ⟨.isConfigured, target⟩).2 =
      .ok (.verdict (({} : Session).run before).1.configured) := rfl
  rw [answered, Except.ok.injEq, Answer.verdict.injEq, configured_run_iff]
  exact or_iff_right Bool.false_ne_true

/-! ## What all steps keep -/

theorem mem_slots_of_stored {session : Session} {slot : String} {answer : Answer}
    (h : session.stored slot = .ok answer) : (slot, answer) ∈ session.slots := by
  rw [stored] at h
  split at h
  · next answer' found =>
    cases h
    obtain ⟨before, after, hslots, -⟩ := List.lookup_eq_some_iff.1 found
    rw [hslots]
    exact List.mem_append_right before List.mem_cons_self
  · cases h

/-- The configuration is in range, and so are the rules in the slots. -/
structure Sound (session : Session) : Prop where
  config : session.config.Valid
  slots : ∀ slot x, (slot, Answer.rule x) ∈ session.slots → x.rule.Admitted

theorem sound_start : ({} : Session).Sound :=
  ⟨Config.valid_default, fun _ _ h => nomatch h⟩

/-- Wherever a request takes its rule from, the rule is in range. -/
theorem Sound.admitted_of_obtain {session : Session} (sound : session.Sound) {source : Source}
    {x : Combination} (h : session.obtain source = .ok x) : x.rule.Admitted := by
  cases source with
  | given origin => exact (Origin.sendable_of_obtain h).admitted sound.config
  | wireSlot slot =>
      obtain ⟨answer, -, h⟩ := Except.bind_eq_ok_iff.1 h
      obtain ⟨text, -, h⟩ := Except.bind_eq_ok_iff.1 h
      exact (Origin.sendable_of_obtain h).admitted sound.config
  | slot slot =>
      obtain ⟨answer, hstored, h⟩ := Except.bind_eq_ok_iff.1 h
      cases answer with
      | rule y =>
          -- obtained under an earlier configuration, of which only the ceiling is left
          cases h
          exact sound.slots slot _ (mem_slots_of_stored hstored)
      | _ => cases h

theorem Sound.store {session : Session} (sound : session.Sound) (target : Option String)
    {answer : Answer} (h : ∀ x, answer = .rule x → x.rule.Admitted) :
    (session.store target answer).Sound := by
  cases target with
  | none => exact sound
  | some name =>
      refine ⟨sound.config, ?_⟩
      intro slot x hx
      rcases List.mem_cons.1 hx with hx | hx
      · exact h x (Prod.ext_iff.1 hx).2.symm
      · exact sound.slots slot x hx

theorem Sound.acts {session acted : Session} {action : Action} {answer : Answer}
    (sound : session.Sound) (acts : session.Acts action acted answer) :
    acted.Sound ∧ ∀ x, answer = .rule x → x.rule.Admitted := by
  cases acts with
  | @configure settings config asked =>
      exact ⟨⟨(configOf_eq_ok_iff.1 asked).2, sound.slots⟩, fun x h => nomatch h⟩
  | isConfigured => exact ⟨sound, fun x h => nomatch h⟩
  | request obtained answered =>
      refine ⟨sound, ?_⟩
      rintro y rfl
      rw [Use.eq_of_answer_eq_rule answered]
      exact sound.admitted_of_obtain obtained

theorem Sound.step {session : Session} (sound : session.Sound) (s : Step) :
    (session.step s).1.Sound := by
  rcases hstep : session.step s with ⟨after, outcome⟩
  cases outcome with
  | error fault =>
      rw [eq_of_step_eq_error hstep]
      exact sound
  | ok answer =>
      obtain ⟨acted, acts, rfl⟩ := step_eq_ok_iff.1 hstep
      obtain ⟨hacted, hanswer⟩ := sound.acts acts
      exact hacted.store s.target hanswer

theorem Sound.run {session : Session} (sound : session.Sound) (steps : List Step) :
    (session.run steps).1.Sound := by
  induction steps generalizing session with
  | nil => exact sound
  | cons first rest ih => exact ih (sound.step first)

/-! ## After any steps -/

/-- Whatever steps came before, every rule that a step stores is in range, and a request
either fails without a rule or puts one to use that is in range. -/
theorem admitted_after_run (before : List Step) (s : Step) (session : Session)
    (reached : (({} : Session).run before).1 = session) :
    (∀ slot x, (slot, Answer.rule x) ∈ (session.step s).1.slots →
      (∀ c ∈ x.rule.leaves, c.expressible = true) ∧ x.rule.height ≤ conditionsCeiling) ∧
    ∀ source use, s.action = .request source use →
      (∃ fault, session.obtain source = .error fault ∧
        session.step s = (session, .error fault)) ∨
      ∃ x, session.obtain source = .ok x ∧ (session.step s).2 = use.answer x ∧
        (∀ c ∈ x.rule.leaves, c.expressible = true) ∧ x.rule.height ≤ conditionsCeiling := by
  have sound : session.Sound := reached ▸ sound_start.run before
  refine ⟨?_, ?_⟩
  · intro slot x hx
    obtain ⟨expressible, height⟩ := (sound.step s).slots slot x hx
    exact ⟨expressible, height⟩
  · intro source use haction
    obtain ⟨action, target⟩ := s
    cases haction
    have outcome := session.outcome_step_request source use target
    cases hobtain : session.obtain source with
    | error fault =>
        rw [hobtain] at outcome
        have stays := eq_of_step_eq_error (Prod.ext rfl outcome)
        exact .inl ⟨fault, rfl, Prod.ext stays outcome⟩
    | ok x =>
        rw [hobtain] at outcome
        obtain ⟨expressible, height⟩ := sound.admitted_of_obtain hobtain
        exact .inr ⟨x, rfl, outcome, expressible, height⟩

/-- A rule is kept, and then the limit on conditions is set below its height. -/
def keptAndLowered : List Step :=
  ⟨.request (.given (.text (.text "a > 1 AND b > 2"))) .keep, some "rule"⟩ :: lowered

theorem admitted_after_run_lowered :
    (({} : Session).run keptAndLowered).1 = (keptPair.run lowered).1 ∧
      ("rule", Answer.rule ⟨.paired, []⟩) ∈
        ((keptPair.run lowered).1.step ⟨.request (.slot "rule") .wire, some "sent"⟩).1.slots ∧
      (keptPair.run lowered).1.config.maxConditions < Rule.paired.height ∧
      Rule.paired.height ≤ conditionsCeiling ∧
      ∃ x, (keptPair.run lowered).1.obtain (.slot "rule") = .ok x ∧
        ((keptPair.run lowered).1.step ⟨.request (.slot "rule") .wire, some "sent"⟩).2 =
          .ok (.text x.rule.toWire) ∧
        ∀ c ∈ x.rule.leaves, c.expressible = true := by
  have reached : (({} : Session).run keptAndLowered).1 = (keptPair.run lowered).1 := by
    decide +kernel
  have kept : ("rule", Answer.rule ⟨.paired, []⟩) ∈
      ((keptPair.run lowered).1.step ⟨.request (.slot "rule") .wire, some "sent"⟩).1.slots := by
    decide +kernel
  obtain ⟨stored, used⟩ := admitted_after_run keptAndLowered
    ⟨.request (.slot "rule") .wire, some "sent"⟩ _ reached
  refine ⟨reached, kept, by decide +kernel, (stored _ _ kept).2, ?_⟩
  rcases used _ _ rfl with ⟨fault, failed, -⟩ | ⟨x, obtained, outcome, expressible, -⟩
  · cases failed
  · exact ⟨x, obtained, outcome, expressible⟩

/-- Whatever steps came before, the configuration after a step passes the check. A step that
fails changes nothing, and one that does not configure leaves the configuration alone. A
configuring step installs the defaults overlaid with its settings, and succeeds exactly if
that is possible and in range. -/
theorem config_after_run (before : List Step) (s : Step) (session after : Session)
    (outcome : Except Fault Answer) (reached : (({} : Session).run before).1 = session)
    (taken : session.step s = (after, outcome)) :
    after.config.check = .ok after.config ∧
    (∀ fault, outcome = .error fault → after = session) ∧
    (∀ settings, s.action = .configure settings → ∀ config : Config,
      ((∃ answer, outcome = .ok answer) ∧ after.config = config ↔
        Asks settings config ∧ config.Valid)) ∧
    ((∀ settings, s.action ≠ .configure settings) → after.config = session.config) := by
  have sound : after.Sound := by
    have h := (sound_start.run before).step s
    rwa [reached, taken] at h
  refine ⟨Config.check_eq_ok_iff.2 ⟨rfl, sound.config⟩, ?_, ?_, ?_⟩
  · rintro fault rfl
    exact eq_of_step_eq_error taken
  · intro settings haction config
    obtain ⟨action, target⟩ := s
    cases haction
    rw [← configOf_eq_ok_iff]
    constructor
    · rintro ⟨⟨answer, rfl⟩, rfl⟩
      exact config_eq_of_step_configure taken
    · intro asked
      obtain ⟨rfl, rfl⟩ := Prod.ext_iff.1 (taken.symm.trans (session.step_configure asked target))
      exact ⟨⟨.done, rfl⟩, config_store _ _ _⟩
  · intro other
    exact config_eq_of_step other taken

/-- Rules are joined by `or`, and five conditions are admitted. -/
def narrowed : List Step :=
  [⟨.configure (some [(some "default_connective", .text "Or"),
    (some "max_conditions", .integer 5)]), none⟩]

/-- Seven parentheses are admitted. -/
def nested : Step := ⟨.configure (some [(some "max_nesting_depth", .integer 7)]), none⟩

/-- Seven parentheses are admitted, and no condition, which is out of range. -/
def emptied : Step :=
  ⟨.configure (some [(some "max_nesting_depth", .integer 7), (some "max_conditions", .integer 0)]),
    none⟩

theorem config_after_run_narrowed :
    (({} : Session).run narrowed).1 =
        { config := { defaultConnective := .or, maxConditions := 5 }, configured := true } ∧
      ((({} : Session).run narrowed).1.step nested).1.config = { maxNesting := 7 } ∧
      ((({} : Session).run narrowed).1.step emptied).1 = (({} : Session).run narrowed).1 := by
  obtain ⟨-, -, configured, -⟩ := config_after_run narrowed nested _ _ _ rfl rfl
  obtain ⟨-, failed, -⟩ := config_after_run narrowed emptied _ _ _ rfl rfl
  have asks : Asks (some [(some "max_nesting_depth", .integer 7)]) { maxNesting := 7 } :=
    ⟨rfl, .integer (n := 7) (by decide), rfl, rfl⟩
  have valid : ({ maxNesting := 7 } : Config).Valid :=
    ⟨by decide, by decide, by decide, by decide⟩
  have outOfRange : ((({} : Session).run narrowed).1.step emptied).2 =
      .error (.config .conditionsOutOfRange) := by decide +kernel
  exact ⟨by decide +kernel, ((configured _ rfl _).2 ⟨asks, valid⟩).2, failed _ outOfRange⟩

end Session

end Host

end Eligibility
