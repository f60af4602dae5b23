import Eligibility.Host.Conversion
import Eligibility.Proofs.Outcome

/-!
# Settings

A mapping of settings asks for a configuration: the defaults, overlaid with the settings
that are given (`Mapping.Overlays`). It is the one that the mapping is converted to if its
limits are in range, and there is none else.
-/

namespace Eligibility.Host

namespace Argument

/-- The argument gives a limit: an integer below 2^64, or a flag for zero or one. -/
inductive IsLimit : Argument → Nat → Prop
  | flag (b : Bool) : IsLimit (.flag b) b.toNat
  | integer {n : Nat} (bounded : n < UInt64.size) : IsLimit (.integer n) n

/-- The argument names a connective, in whatever case of its letters. -/
inductive Names : Argument → Connective → Prop
  | text {name : String} {op : Connective} (spelled : name.map Char.toUpper = op.word) :
      Names (.text name) op

theorem toLimit_eq_ok_iff {argument : Argument} {n : Nat} :
    argument.toLimit = .ok n ↔ argument.IsLimit n := by
  constructor
  · intro h
    cases argument with
    | flag b =>
        cases h
        exact .flag b
    | integer i =>
        rw [toLimit] at h
        split at h
        · next range =>
          obtain ⟨nonneg, bounded⟩ := range
          cases h
          obtain ⟨n, rfl⟩ := Int.eq_ofNat_of_zero_le nonneg
          exact .integer (Int.ofNat_lt.1 bounded)
        · cases h
    | _ => cases h
  · rintro (b | bounded)
    · rfl
    · rw [toLimit, if_pos ⟨Int.natCast_nonneg n, Int.ofNat_lt.2 bounded⟩, Int.toNat_natCast]

end Argument

namespace Mapping

theorem connectiveSetting_eq_ok_iff {argument : Argument} {op : Connective} :
    connectiveSetting argument = .ok op ↔ argument.Names op := by
  constructor
  · intro h
    obtain ⟨name, htext, hop⟩ := Except.bind_eq_ok_iff.1 h
    cases argument with
    | text s =>
        cases htext
        split at hop
        · next hnamed =>
          cases hop
          exact .text (Connective.ofWord?_eq_some_iff.1 hnamed)
        · cases hop
    | _ => cases htext
  · rintro @⟨name, _, spelled⟩
    have hnamed : Connective.named? name = some op := Connective.ofWord?_eq_some_iff.2 spelled
    refine Except.bind_eq_ok_iff.2 ⟨name, rfl, ?_⟩
    rw [hnamed]

section Setting

variable {α : Type}

/-- What the mapping gives for a key, if that is not nothing. -/
def given? (mapping : Mapping) (key : String) : Option Argument :=
  match mapping.get? key with
  | some .nothing => none
  | argument? => argument?

theorem setting_eq (mapping : Mapping) (key : String) (default : α)
    (convert : Argument → Except Fault α) :
    mapping.setting key default convert =
      match mapping.given? key with
      | none => .ok default
      | some argument => convert argument := by
  rw [setting, given?]
  cases mapping.get? key with
  | none => rfl
  | some argument => cases argument <;> rfl

/-- The value that a setting has: what is given says it, or it is the default where nothing
is given. -/
def Sets (mapping : Mapping) (key : String) (default : α) (Says : Argument → α → Prop)
    (value : α) : Prop :=
  match mapping.given? key with
  | none => value = default
  | some argument => Says argument value

theorem setting_eq_ok_iff {mapping : Mapping} {key : String} {default value : α}
    {convert : Argument → Except Fault α} {Says : Argument → α → Prop}
    (converts : ∀ {argument : Argument} {value : α},
      convert argument = .ok value ↔ Says argument value) :
    mapping.setting key default convert = .ok value ↔
      mapping.Sets key default Says value := by
  rw [setting_eq, Sets]
  cases mapping.given? key with
  | none =>
      constructor
      · rintro ⟨⟩
        rfl
      · rintro rfl
        rfl
  | some argument => exact converts

end Setting

/-- The configuration has the values that the settings give, and the defaults elsewhere. -/
structure Overlays (settings : Mapping) (config : Config) : Prop where
  connective : settings.Sets "default_connective" ({} : Config).defaultConnective
    Argument.Names config.defaultConnective
  nesting : settings.Sets "max_nesting_depth" ({} : Config).maxNesting
    Argument.IsLimit config.maxNesting
  length : settings.Sets "max_rule_length" ({} : Config).maxLength
    Argument.IsLimit config.maxLength
  conditions : settings.Sets "max_conditions" ({} : Config).maxConditions
    Argument.IsLimit config.maxConditions

/-- Settings are converted to a configuration exactly if it overlays the defaults with them
and its limits are in range. -/
theorem toConfig_eq_ok_iff {settings : Mapping} {config : Config} :
    settings.toConfig = .ok config ↔ settings.Overlays config ∧ config.Valid := by
  simp only [toConfig, Except.bind_eq_ok_iff, Except.mapError_eq_ok_iff, Config.check_eq_ok_iff,
    setting_eq_ok_iff connectiveSetting_eq_ok_iff, setting_eq_ok_iff Argument.toLimit_eq_ok_iff]
  constructor
  · rintro ⟨defaultConnective, connective, maxNesting, nesting, maxLength, length,
      maxConditions, conditions, rfl, valid⟩
    exact ⟨⟨connective, nesting, length, conditions⟩, valid⟩
  · rintro ⟨⟨connective, nesting, length, conditions⟩, valid⟩
    exact ⟨_, connective, _, nesting, _, length, _, conditions, rfl, valid⟩

end Mapping

end Eligibility.Host
