import Eligibility.Config.OfJson
import Eligibility.Proofs.Json.Grammar
import Eligibility.Proofs.Settings
import Mathlib.Data.List.Nodup

/-!
# Ways to a configuration

Settings are given as the members of a JSON object or as the pairs of a mapping. A setting with an
unknown key may have any value, since nothing looks at it. In either case the settings are laid
over the defaults (`Setting.overlay`), and their order makes no difference.

So the two ways lead to the same configuration, or to the same complaint
(`Setting.read_eq_toConfig`).
-/

namespace Eligibility

namespace Config

theorem limitOfJson?_integer {n : Nat} (bounded : n < UInt64.size) :
    limitOfJson? (.integer n) = some n := by
  rw [Json.integer, limitOfJson?, Json.Number.integer?_ofInt, Option.bind_some,
    if_pos ⟨Int.natCast_nonneg n, Int.ofNat_lt.2 bounded⟩, Int.toNat_natCast]

/-- Whatever is wrong with a configuration that settings ask for, there is a message about it. -/
theorem exists_message_of_check_eq_error {config : Config} {e : ConfigError}
    (h : config.check = .error e) :
    ∃ complaint, e.message? = some ("Invalid config: " ++ complaint) := by
  simp only [check] at h
  split at h
  · cases h
    exact ⟨"max_nesting_depth must be at least 1", rfl⟩
  split at h
  · cases h
    exact ⟨"max_rule_length must be at least 1", rfl⟩
  split at h
  · cases h
    exact ⟨"max_conditions must be between 1 and " ++ toString conditionsCeiling,
      by decide +kernel⟩
  · cases h

end Config

namespace Host

/-- The limits of a configuration. -/
inductive Limit where
  | nesting
  | length
  | conditions
deriving DecidableEq

namespace Limit

def key : Limit → String
  | nesting => "max_nesting_depth"
  | length => "max_rule_length"
  | conditions => "max_conditions"

def get (config : Config) : Limit → Nat
  | nesting => config.maxNesting
  | length => config.maxLength
  | conditions => config.maxConditions

def set (config : Config) (n : Nat) : Limit → Config
  | nesting => { config with maxNesting := n }
  | length => { config with maxLength := n }
  | conditions => { config with maxConditions := n }

theorem key_injective : Function.Injective key := by
  intro l l' h
  cases l <;> cases l' <;> first | rfl | exact absurd h (by decide)

theorem key_ne_connective (l : Limit) : l.key ≠ "default_connective" := by
  cases l <;> decide

theorem get_set_self (config : Config) (n : Nat) (l : Limit) : l.get (l.set config n) = n := by
  cases l <;> rfl

theorem get_set_of_ne {l l' : Limit} (ne : l ≠ l') (config : Config) (n : Nat) :
    l'.get (l.set config n) = l'.get config := by
  cases l <;> cases l' <;> first | rfl | exact absurd rfl ne

end Limit

/-- A setting, with what it is given as. Limits are below 2^64. A key that is unknown comes with
any value and any argument. -/
inductive Setting where
  | connective (op : Connective)
  | limit (l : Limit) (n : UInt64)
  | other (key : String) (noConnective : key ≠ "default_connective")
    (noLimit : ∀ l : Limit, key ≠ l.key) (value : Json) (argument : Argument)

namespace Setting

def key : Setting → String
  | connective _ => "default_connective"
  | limit l _ => l.key
  | other key _ _ _ _ => key

/-- The setting as a member of an object. -/
def member (s : Setting) : Option String × Json :=
  (some s.key,
    match s with
    | connective op => .text op.word
    | limit _ n => .integer n.toNat
    | other _ _ _ value _ => value)

/-- The setting as a pair of a mapping. -/
def pair (s : Setting) : Option String × Argument :=
  (some s.key,
    match s with
    | connective op => .text op.word
    | limit _ n => .integer n.toNat
    | other _ _ _ _ argument => argument)

/-- The configuration with what the setting says. -/
def apply (config : Config) : Setting → Config
  | connective op => { config with defaultConnective := op }
  | limit l n => l.set config n.toNat
  | other _ _ _ _ _ => config

/-- The defaults, overlaid with the settings. -/
def overlay (settings : List Setting) : Config :=
  settings.foldr (fun s config => s.apply config) {}

/-! ## Settings by their keys -/

section Key

variable {s : Setting} {l : Limit}

theorem eq_limit_of_key (h : s.key = l.key) : ∃ n, s = limit l n := by
  cases s with
  | connective op => exact absurd h.symm l.key_ne_connective
  | limit l' n =>
      obtain rfl := Limit.key_injective h
      exact ⟨n, rfl⟩
  | other key noConnective noLimit value argument => exact absurd h (noLimit l)

theorem eq_connective_of_key (h : s.key = "default_connective") : ∃ op, s = connective op := by
  cases s with
  | connective op => exact ⟨op, rfl⟩
  | limit l n => exact absurd h l.key_ne_connective
  | other key noConnective noLimit value argument => exact absurd h noConnective

theorem get_apply_of_ne (ne : s.key ≠ l.key) (config : Config) :
    l.get (s.apply config) = l.get config := by
  cases s with
  | connective op => cases l <;> rfl
  | limit l' n => exact Limit.get_set_of_ne (fun h => ne (congrArg Limit.key h)) config _
  | other key noConnective noLimit value argument => rfl

theorem defaultConnective_apply_of_ne (ne : s.key ≠ "default_connective") (config : Config) :
    (s.apply config).defaultConnective = config.defaultConnective := by
  cases s with
  | connective op => exact absurd rfl ne
  | limit l n => cases l <;> rfl
  | other key noConnective noLimit value argument => rfl

end Key

/-- Settings with different keys may be laid over a configuration in either order. -/
theorem apply_comm {s s' : Setting} (ne : s.key ≠ s'.key) (config : Config) :
    s.apply (s'.apply config) = s'.apply (s.apply config) := by
  match s, s' with
  | other .., _ => rfl
  | _, other .. => rfl
  | connective _, connective _ => exact absurd rfl ne
  | connective _, limit l _ => cases l <;> rfl
  | limit l _, connective _ => cases l <;> rfl
  | limit l _, limit l' _ =>
      cases l <;> cases l' <;> first | rfl | exact absurd rfl ne

theorem overlay_perm {settings settings' : List Setting} (perm : settings.Perm settings')
    (distinct : (settings.map key).Nodup) : overlay settings = overlay settings' := by
  refine perm.foldr_eq' (fun s hs s' hs' config => ?_) _
  by_cases same : s.key = s'.key
  · rw [List.inj_on_of_nodup_map distinct hs hs' same]
  · exact apply_comm (Ne.symm same) config

/-! ## Looking settings up -/

section Look

variable {settings : List Setting} {s : Setting} {name : String}

/-- What is looked up among settings is what the overlaid configuration has: settings with other
keys are passed over and leave it as it is, and the setting with the key gives it. -/
theorem look_overlay {α β : Type} (look : List Setting → β) (field : Config → α) (found : α → β)
    (default : look [] = found (field {}))
    (pass : ∀ (s : Setting) settings, s.key ≠ name → look (s :: settings) = look settings)
    (keep : ∀ (s : Setting) config, s.key ≠ name → field (s.apply config) = field config)
    (give : ∀ (s : Setting) settings config, s.key = name → name ∉ settings.map key →
      look (s :: settings) = found (field (s.apply config)))
    (distinct : (settings.map key).Nodup) : look settings = found (field (overlay settings)) := by
  induction settings with
  | nil => exact default
  | cons s settings ih =>
      obtain ⟨fresh, distinct⟩ := List.nodup_cons.1 distinct
      by_cases same : s.key = name
      · subst same
        exact give s settings _ rfl fresh
      · rw [pass s settings same, ih distinct]
        exact congrArg found (keep s _ same).symm

variable {α : Type} {default : α}

theorem setting_member_of_ne {read? : Json → Option α} (ne : s.key ≠ name) :
    Config.setting read? default name ((s :: settings).map member) =
      Config.setting read? default name (settings.map member) := by
  have other : ¬s.member.1 = some name := fun h => ne (Option.some.inj h)
  simp only [Config.setting, List.map_cons, List.filter_cons, other, decide_false,
    Bool.false_eq_true, if_false]

theorem setting_member_of_eq {read? : Json → Option α} (same : s.key = name)
    (fresh : name ∉ settings.map key) :
    Config.setting read? default name ((s :: settings).map member) = read? s.member.2 := by
  have others : (settings.map member).filter (·.1 = some name) = [] := by
    rw [List.filter_eq_nil_iff]
    intro m hm named
    obtain ⟨s', hs', rfl⟩ := List.mem_map.1 hm
    exact fresh (List.mem_map.2 ⟨s', hs', Option.some.inj (of_decide_eq_true named)⟩)
  have this : s.member.1 = some name := congrArg some same
  simp only [Config.setting, List.map_cons, List.filter_cons, this, decide_true, if_true, others]

theorem setting_pair_of_ne {convert : Argument → Except Fault α} (ne : s.key ≠ name) :
    Mapping.setting ((s :: settings).map pair) name default convert =
      Mapping.setting (settings.map pair) name default convert := by
  have other : ¬s.pair.1 = some name := fun h => ne (Option.some.inj h)
  simp [Mapping.setting, Mapping.get?, other]

theorem get?_pair_of_eq (same : s.key = name) :
    Mapping.get? ((s :: settings).map pair) name = some s.pair.2 := by
  simp [Mapping.get?, pair, same]

end Look

section Found

variable {settings : List Setting}

theorem setting_member_limit (distinct : (settings.map key).Nodup) (l : Limit) :
    Config.setting Config.limitOfJson? (l.get {}) l.key (settings.map member) =
      some (l.get (overlay settings)) := by
  refine look_overlay (fun settings => Config.setting _ _ l.key (settings.map member))
    (fun config => l.get config) some rfl (fun _ _ => setting_member_of_ne)
    (fun _ config ne => get_apply_of_ne ne config) (fun s settings config same fresh => ?_) distinct
  obtain ⟨n, rfl⟩ := eq_limit_of_key same
  rw [setting_member_of_eq same fresh, apply, Limit.get_set_self]
  exact Config.limitOfJson?_integer n.toNat_lt

theorem setting_member_connective (distinct : (settings.map key).Nodup) :
    Config.setting Config.connectiveOfJson? ({} : Config).defaultConnective "default_connective"
      (settings.map member) = some (overlay settings).defaultConnective := by
  refine look_overlay (fun settings => Config.setting _ _ _ (settings.map member))
    Config.defaultConnective some rfl (fun _ _ => setting_member_of_ne)
    (fun _ config ne => defaultConnective_apply_of_ne ne config)
    (fun s settings config same fresh => ?_) distinct
  obtain ⟨op, rfl⟩ := eq_connective_of_key same
  rw [setting_member_of_eq same fresh]
  exact Connective.ofWord?_word op

theorem setting_pair_limit (distinct : (settings.map key).Nodup) (l : Limit) :
    Mapping.setting (settings.map pair) l.key (l.get {}) Argument.toLimit =
      .ok (l.get (overlay settings)) := by
  refine look_overlay (fun settings => Mapping.setting (settings.map pair) l.key _ _)
    (fun config => l.get config) .ok rfl (fun _ _ => setting_pair_of_ne)
    (fun _ config ne => get_apply_of_ne ne config) (fun s settings config same _ => ?_) distinct
  obtain ⟨n, rfl⟩ := eq_limit_of_key same
  rw [Mapping.setting, get?_pair_of_eq same, apply, Limit.get_set_self]
  exact Argument.toLimit_eq_ok_iff.2 (.integer n.toNat_lt)

theorem setting_pair_connective (distinct : (settings.map key).Nodup) :
    Mapping.setting (settings.map pair) "default_connective" ({} : Config).defaultConnective
      Mapping.connectiveSetting = .ok (overlay settings).defaultConnective := by
  refine look_overlay (fun settings => Mapping.setting (settings.map pair) _ _ _)
    Config.defaultConnective .ok rfl (fun _ _ => setting_pair_of_ne)
    (fun _ config ne => defaultConnective_apply_of_ne ne config)
    (fun s settings config same _ => ?_) distinct
  obtain ⟨op, rfl⟩ := eq_connective_of_key same
  have spelled : op.word.map Char.toUpper = op.word := by cases op <;> decide +kernel
  rw [Mapping.setting, get?_pair_of_eq same]
  exact Mapping.connectiveSetting_eq_ok_iff.2 (.text spelled)

/-- A text of the object with the settings as members stands for what they ask for. -/
theorem read_eq_check_overlay (distinct : (settings.map key).Nodup) {text : String}
    (h : Json.ValueText text.toList (.object (settings.map member))) :
    Config.read text = (overlay settings).check := by
  have named : (settings.map member).all (·.1.isSome) = true := by
    simp [member]
  have connective := setting_member_connective distinct
  have nesting := setting_member_limit distinct .nesting
  have length := setting_member_limit distinct .length
  have conditions := setting_member_limit distinct .conditions
  simp only [Limit.key, Limit.get] at nesting length conditions
  have config : Config.ofJson? (.object (settings.map member)) = some (overlay settings) := by
    simp [Config.ofJson?, named, connective, nesting, length, conditions]
  rw [Config.read, Json.read_of_valueText h, Option.bind_some, config]

theorem toConfig_eq_check_overlay (distinct : (settings.map key).Nodup) :
    Mapping.toConfig (settings.map pair) = (overlay settings).check.mapError .config := by
  have connective := setting_pair_connective distinct
  have nesting := setting_pair_limit distinct .nesting
  have length := setting_pair_limit distinct .length
  have conditions := setting_pair_limit distinct .conditions
  simp only [Limit.key, Limit.get] at nesting length conditions
  rw [Mapping.toConfig, connective, nesting, length, conditions]
  rfl

end Found

end Setting

namespace Mapping

theorem put_of_notMem {mapping : Mapping} {key : Option String} (fresh : key ∉ mapping.map Prod.fst)
    (value : Argument) : mapping.put key value = mapping ++ [(key, value)] := by
  induction mapping with
  | nil => rfl
  | cons entry mapping ih =>
      obtain ⟨ne, fresh⟩ := not_or.1 (fun h => fresh (List.mem_cons.2 h))
      rw [put, if_neg (Ne.symm ne), ih fresh, List.cons_append]

/-- Pairs with different keys are the mapping that they make. -/
theorem ofPairs_of_nodup {pairs : List (Option String × Argument)}
    (distinct : (pairs.map Prod.fst).Nodup) : ofPairs pairs = pairs := by
  induction pairs using List.reverseRecOn with
  | nil => rfl
  | append_singleton pairs entry ih =>
      rw [List.map_append, List.map_singleton, ← List.concat_eq_append,
        List.nodup_concat] at distinct
      obtain ⟨fresh, distinct⟩ := distinct
      have kept := ih distinct
      rw [ofPairs] at kept
      rw [ofPairs, List.foldl_append, kept]
      exact put_of_notMem fresh entry.2

end Mapping

namespace Setting

/-- Settings with different keys have one outcome, whether they are members of an object or pairs
of a mapping, and in whatever order they stand: the defaults overlaid with them, if the limits are
in range, and else a complaint. The complaint is the same text in either case. -/
theorem read_eq_toConfig (settings settings' : List Setting) (text text' : String)
    (distinct : (settings.map key).Nodup) (perm : settings.Perm settings')
    (h : Json.ValueText text.toList (.object (settings.map member)))
    (h' : Json.ValueText text'.toList (.object (settings'.map member))) :
    ∃ outcome : Except ConfigError Config, outcome = (overlay settings).check ∧
      Config.read text = outcome ∧
      (Mapping.ofPairs (settings.map pair)).toConfig = outcome.mapError .config ∧
      Config.read text' = outcome ∧
      (Mapping.ofPairs (settings'.map pair)).toConfig = outcome.mapError .config ∧
      ∀ e, outcome = .error e →
        ∃ complaint, e.message? = some ("Invalid config: " ++ complaint) ∧
          (Fault.config e).message? = some ("Invalid config: " ++ complaint) := by
  have distinct' : (settings'.map key).Nodup := (perm.map key).nodup_iff.1 distinct
  have pairs : ∀ {settings : List Setting}, (settings.map key).Nodup →
      Mapping.ofPairs (settings.map pair) = settings.map pair := by
    intro settings distinct
    apply Mapping.ofPairs_of_nodup
    have keys : (settings.map pair).map Prod.fst = (settings.map key).map some := by
      simp [pair]
    rw [keys]
    exact distinct.map (Option.some_injective _)
  refine ⟨(overlay settings).check, rfl, read_eq_check_overlay distinct h, ?_, ?_, ?_, ?_⟩
  · rw [pairs distinct, toConfig_eq_check_overlay distinct]
  · rw [read_eq_check_overlay distinct' h', overlay_perm perm distinct]
  · rw [pairs distinct', toConfig_eq_check_overlay distinct', overlay_perm perm distinct]
  · intro e he
    obtain ⟨complaint, message⟩ := Config.exists_message_of_check_eq_error he
    exact ⟨complaint, message, message⟩

/-- A key that is unknown, with a number beyond the range of doubles and a string that is no
text. -/
def note : Setting :=
  other "note" (by decide) (fun l => by cases l <;> decide)
    (.array [.number ⟨false, 1, [], some 999⟩, .string none]) (.list [.real])

/-- Two limits are out of range. -/
def beyond : List Setting :=
  [limit .conditions 16385, note, limit .length 0, connective .or]

/-- These settings as an object. -/
def beyondText : String :=
  "\x7b\"max_conditions\":16385,\"note\":[1e999,\"\\udfff\"],\"max_rule_length\":0," ++
    "\"default_connective\":\"OR\"\x7d"

/-- The same settings from the last one to the first one. -/
def reversedText : String :=
  "\x7b\"default_connective\":\"OR\",\"max_rule_length\":0," ++
    "\"note\":[1e999,\"\\udfff\"],\"max_conditions\":16385\x7d"

section Beyond

open Json

theorem valueText_beyondText :
    ValueText beyondText.toList (.object (beyond.map member)) ∧
      ValueText reversedText.toList (.object (beyond.reverse.map member)) := by
  have unspaced : ∀ c ∈ [], isSpace c = true := List.forall_mem_nil _
  have huge : ValueText ['1', 'e', '9', '9', '9'] (.number ⟨false, 1, [], some 999⟩) :=
    .number ⟨⟨false, [1], by decide⟩, [],
      some ⟨false, false, ⟨false, [9, 9, 9], by decide⟩, by decide⟩, by decide⟩
  have lone : StringText ['"', '\\', 'u', 'd', 'f', 'f', 'f', '"'] none :=
    @StringText.quoted ['\\', 'u', 'd', 'f', 'f', 'f'] _ _ (.unit rfl rfl rfl rfl .nil) (by decide)
  have conditions : MemberText _ (limit .conditions 16385).member :=
    .mk unspaced (stringText_of_all (by decide +kernel)) unspaced
      (.number ⟨⟨false, [1, 6, 3, 8, 5], by decide⟩, [], none, by decide⟩)
  have length : MemberText _ (limit .length 0).member :=
    .mk unspaced (stringText_of_all (by decide +kernel)) unspaced
      (.number ⟨⟨false, [0], by decide⟩, [], none, by decide⟩)
  have unknown : MemberText _ note.member :=
    .mk unspaced (stringText_of_all (by decide +kernel)) unspaced
      (.array (.more huge (.one (.string lone))))
  have either : MemberText _ (connective .or).member :=
    .mk unspaced (stringText_of_all (by decide +kernel)) unspaced
      (.string (stringText_of_all (by decide +kernel)))
  constructor
  · convert ValueText.object (.more conditions (.more unknown (.more length (.one either)))) using 1
    · decide +kernel
    · rfl
  · convert ValueText.object (.more either (.more length (.more unknown (.one conditions)))) using 1
    · decide +kernel
    · rfl

end Beyond

/-- The complaint is about the first of the limits that are out of range, whichever of them is
given first. -/
theorem read_eq_toConfig_beyond :
    (beyond.map key).Nodup ∧ beyond.Perm beyond.reverse ∧
      Json.ValueText beyondText.toList (.object (beyond.map member)) ∧
      Json.ValueText reversedText.toList (.object (beyond.reverse.map member)) ∧
      Config.read beyondText = .error .lengthOutOfRange ∧
      (Mapping.ofPairs (beyond.map pair)).toConfig = .error (.config .lengthOutOfRange) ∧
      Config.read reversedText = .error .lengthOutOfRange ∧
      (Mapping.ofPairs (beyond.reverse.map pair)).toConfig = .error (.config .lengthOutOfRange) ∧
      ConfigError.lengthOutOfRange.message? =
        some "Invalid config: max_rule_length must be at least 1" := by
  have distinct : (beyond.map key).Nodup := by decide
  have perm : beyond.Perm beyond.reverse := (List.reverse_perm _).symm
  obtain ⟨text, reversed⟩ := valueText_beyondText
  obtain ⟨outcome, houtcome, hread, hpairs, hread', hpairs', -⟩ :=
    read_eq_toConfig _ _ _ _ distinct perm text reversed
  have outOfRange : outcome = .error .lengthOutOfRange := by
    rw [houtcome]
    decide +kernel
  subst outOfRange
  exact ⟨distinct, perm, text, reversed, hread, hpairs, hread', hpairs', rfl⟩

end Setting

end Host

end Eligibility
