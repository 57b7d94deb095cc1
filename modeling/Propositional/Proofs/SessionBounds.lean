import Propositional.Session
import Propositional.Proofs.Inference
import Propositional.Proofs.WordEnumeration

/-!
The bounds of the settings over a session. What a step does to the settings does not depend on the
rest of the calculator, and only writing a bound directly changes a bound. So a setting stays within
its bounds as long as neither a bound of it is written nor a value that is out of bounds.
-/

namespace Propositional

set_option autoImplicit false

namespace Setting

variable {Value : Type} [LE Value] [DecidableLE Value]

def SameBounds (first second : Setting Value) : Prop :=
  first.least = second.least ∧ first.greatest = second.greatest

def Within (setting : Setting Value) : Prop := setting.Accepts setting.value

theorem set_eq_some_iff (setting later : Setting Value) (value : Value) :
    setting.set? value = some later ↔
      setting.Accepts value ∧ setting.write .value value = later := by
  unfold set?
  split <;> simp_all [write]

omit [DecidableLE Value] in
theorem accepts_of_same_bounds {first second : Setting Value} {value : Value}
    (same : first.SameBounds second) (accepts : second.Accepts value) : first.Accepts value :=
  ⟨same.1 ▸ accepts.1, same.2 ▸ accepts.2⟩

end Setting

inductive Settings.Name where
  | allowTrailing
  | strategy
  | variableLimit
  deriving DecidableEq

def Change.name : Change → Settings.Name
  | .allowTrailing _ => .allowTrailing
  | .strategy _ => .strategy
  | .variableLimit _ => .variableLimit

namespace Settings

def Accepts (settings : Settings) : Change → Prop
  | .allowTrailing value => settings.allowTrailing.Accepts value
  | .strategy value => settings.strategy.Accepts value
  | .variableLimit value => settings.variableLimit.Accepts value

def SameBounds (first second : Settings) : Name → Prop
  | .allowTrailing => first.allowTrailing.SameBounds second.allowTrailing
  | .strategy => first.strategy.SameBounds second.strategy
  | .variableLimit => first.variableLimit.SameBounds second.variableLimit

def Within (settings : Settings) : Name → Prop
  | .allowTrailing => settings.allowTrailing.Within
  | .strategy => settings.strategy.Within
  | .variableLimit => settings.variableLimit.Within

/-- The settings after a step, which is all of a calculator that matters for this. -/
def after (settings : Settings) : Step → Settings
  | .set change => (settings.set? change).getD settings
  | .force part change => settings.write part change
  | _ => settings

theorem same_bounds_refl (settings : Settings) (name : Name) :
    settings.SameBounds settings name := by
  cases name <;> exact ⟨rfl, rfl⟩

theorem same_bounds_trans {first second third : Settings} {name : Name}
    (before : first.SameBounds second name) (behind : second.SameBounds third name) :
    first.SameBounds third name := by
  cases name <;> exact ⟨before.1.trans behind.1, before.2.trans behind.2⟩

theorem accepts_of_same_bounds {first second : Settings} {change : Change}
    (same : first.SameBounds second change.name) (accepts : second.Accepts change) :
    first.Accepts change := by
  cases change <;> exact Setting.accepts_of_same_bounds same accepts

theorem set_eq_some_iff (settings later : Settings) (change : Change) :
    settings.set? change = some later ↔
      settings.Accepts change ∧ settings.write .value change = later := by
  cases change <;> simp only [set?, Accepts, write, Option.map_eq_some_iff, Setting.set_eq_some_iff,
    and_assoc, exists_and_left, exists_eq_left']

theorem set_eq_none_iff (settings : Settings) (change : Change) :
    settings.set? change = none ↔ ¬ settings.Accepts change := by
  rw [Option.eq_none_iff_forall_ne_some]
  simp [set_eq_some_iff]

theorem write_apart (settings : Settings) (part : Part) {change : Change} {name : Name}
    (apart : change.name ≠ name) :
    (settings.write part change).SameBounds settings name ∧
      (settings.Within name → (settings.write part change).Within name) := by
  cases change <;> cases name <;> first
    | exact absurd rfl apart
    | exact ⟨⟨rfl, rfl⟩, id⟩

theorem write_value (settings : Settings) (change : Change) :
    (settings.write .value change).SameBounds settings change.name ∧
      (settings.Accepts change → (settings.write .value change).Within change.name) := by
  cases change <;> exact ⟨⟨rfl, rfl⟩, id⟩

end Settings

namespace Step

/-- No bound of the setting is written directly. -/
def KeepsBounds (name : Settings.Name) : Step → Prop
  | .force part change => change.name = name → part = .value
  | _ => True

/-- No value that is out of the bounds in the given settings is forced on the setting. -/
def ForcesWithin (settings : Settings) (name : Settings.Name) : Step → Prop
  | .force _ change => change.name = name → settings.Accepts change
  | _ => True

end Step

namespace Settings

theorem same_bounds_write {settings : Settings} {part : Part} {change : Change} {name : Name}
    (keeps : change.name = name → part = .value) :
    (settings.write part change).SameBounds settings name := by
  by_cases here : change.name = name
  · have value := keeps here
    subst value here
    exact (settings.write_value change).1
  · exact (settings.write_apart part here).1

theorem within_write {settings : Settings} {part : Part} {change : Change} {name : Name}
    (keeps : change.name = name → part = .value)
    (accepts : change.name = name → settings.Accepts change) (within : settings.Within name) :
    (settings.write part change).Within name := by
  by_cases here : change.name = name
  · have value := keeps here
    have accepted := accepts here
    subst value here
    exact (settings.write_value change).2 accepted
  · exact (settings.write_apart part here).2 within

theorem same_bounds_after {settings : Settings} {step : Step} {name : Name}
    (keeps : step.KeepsBounds name) : (settings.after step).SameBounds settings name := by
  cases step with
  | set change =>
      rw [after]
      cases accepted : settings.set? change with
      | none => exact same_bounds_refl settings name
      | some later =>
          obtain ⟨_, rfl⟩ := (set_eq_some_iff settings later change).1 accepted
          exact same_bounds_write fun _ => rfl
  | force part change => exact same_bounds_write keeps
  | _ => exact same_bounds_refl settings name

theorem within_after {settings : Settings} {step : Step} {name : Name}
    (keeps : step.KeepsBounds name) (forces : step.ForcesWithin settings name)
    (within : settings.Within name) : (settings.after step).Within name := by
  cases step with
  | set change =>
      rw [after]
      cases accepted : settings.set? change with
      | none => exact within
      | some later =>
          obtain ⟨accepts, rfl⟩ := (set_eq_some_iff settings later change).1 accepted
          exact within_write (fun _ => rfl) (fun _ => accepts) within
  | force part change => exact within_write keeps forces within
  | _ => exact within

theorem forces_within_of_same_bounds {first second : Settings} {step : Step} {name : Name}
    (same : first.SameBounds second name) (forces : step.ForcesWithin second name) :
    step.ForcesWithin first name := by
  cases step with
  | force part change =>
      rintro rfl
      exact accepts_of_same_bounds same (forces rfl)
  | _ => trivial

theorem same_bounds_after_all {settings : Settings} {steps : List Step} {name : Name}
    (keeps : ∀ step ∈ steps, step.KeepsBounds name) :
    (steps.foldl after settings).SameBounds settings name := by
  induction steps generalizing settings with
  | nil => exact same_bounds_refl settings name
  | cons step steps induction =>
      have rest : (steps.foldl after (settings.after step)).SameBounds (settings.after step) name :=
        induction fun later member => keeps later (List.mem_cons_of_mem step member)
      exact same_bounds_trans rest (same_bounds_after (keeps step List.mem_cons_self))

/-- The bounds stay the same, so a value that is in bounds at first is so wherever it is forced. -/
theorem within_after_all {settings : Settings} {steps : List Step} {name : Name}
    (keeps : ∀ step ∈ steps, step.KeepsBounds name)
    (forces : ∀ step ∈ steps, step.ForcesWithin settings name) (within : settings.Within name) :
    (steps.foldl after settings).Within name := by
  induction steps generalizing settings with
  | nil => exact within
  | cons step steps induction =>
      have here := keeps step List.mem_cons_self
      apply induction
      · intro later member
        exact keeps later (List.mem_cons_of_mem step member)
      · intro later member
        apply forces_within_of_same_bounds (same_bounds_after here)
        exact forces later (List.mem_cons_of_mem step member)
      · exact within_after here (forces step List.mem_cons_self) within

end Settings

namespace Calculator

theorem settings_check (calculator : Calculator) :
    calculator.check.2.settings = calculator.settings := by
  unfold check
  split <;> rfl

theorem settings_tabulate_over (evaluate : Assignment → Except Failure Bool)
    (calculator : Calculator) (assignments : List Assignment) (rows : List Row) :
    (tabulateOver evaluate calculator assignments rows).2.settings = calculator.settings := by
  induction assignments generalizing calculator rows with
  | nil => rfl
  | cons assignment assignments induction =>
      have asked := calculator.settings_check
      rw [tabulateOver]
      cases here : calculator.check with
      | mk stop later =>
          rw [here] at asked
          cases stop with
          | true => exact asked
          | false =>
              cases evaluate assignment with
              | error failure => exact asked
              | ok value => exact (induction later _).trans asked

theorem settings_table_of_tokens (calculator : Calculator) (tokens : List Token)
    (domain : Variables) :
    (calculator.tableOfTokens tokens domain).2.settings = calculator.settings := by
  unfold tableOfTokens
  split
  · rw [tabulate_eq]
    exact settings_tabulate_over _ calculator domain.assignments []
  · split
    · rfl
    · rw [tabulate_eq]
      exact settings_tabulate_over _ calculator domain.assignments []

theorem settings_table (calculator : Calculator) (source : Source)
    (names : Option (List String)) :
    (calculator.table source names).2.settings = calculator.settings := by
  unfold table
  split
  · rfl
  · exact calculator.settings_table_of_tokens _ _

theorem settings_perform (calculator : Calculator) (step : Step) :
    (calculator.perform step).2.settings = calculator.settings.after step := by
  cases step with
  | set change =>
      rw [perform, Settings.after]
      cases calculator.settings.set? change <;> rfl
  | check => exact calculator.settings_check
  | table source names => exact calculator.settings_table source names
  | classify source names => exact calculator.settings_table source names
  | _ => rfl

theorem settings_perform_all (calculator : Calculator) (steps : List Step) :
    (calculator.performAll steps).2.settings = steps.foldl Settings.after calculator.settings := by
  induction steps generalizing calculator with
  | nil => rfl
  | cons step steps induction =>
      rw [List.foldl_cons, ← settings_perform]
      exact induction (calculator.perform step).2

theorem perform_set_refused_iff (calculator : Calculator) (change : Change) :
    (calculator.perform (.set change)).1 = .set false ↔ ¬ calculator.settings.Accepts change := by
  rw [← Settings.set_eq_none_iff, perform]
  cases calculator.settings.set? change <;> simp

theorem perform_set_refused {calculator : Calculator} {change : Change}
    (refused : (calculator.perform (.set change)).1 = .set false) :
    (calculator.perform (.set change)).2 = calculator := by
  rw [perform_set_refused_iff, ← Settings.set_eq_none_iff] at refused
  rw [perform, refused]

end Calculator

/-- There are no more variables than letters, and their assignments can be enumerated in words. -/
structure Variables.IsSmall (domain : Variables) : Prop where
  size : domain.size ≤ variableCount
  words : domain.FitWords

theorem Variables.is_small {domain : Variables} (few : domain.size ≤ variableCount) :
    domain.IsSmall where
  size := few
  words := fit_words (Nat.lt_of_le_of_lt few (by decide))

namespace Calculator

/-- What holds of a calculator after the steps of a session. -/
structure StaysBounded (steps : List Step) (calculator : Calculator) : Prop where
  bounds : ∀ name, (∀ step ∈ steps, step.KeepsBounds name) →
    calculator.settings.SameBounds .standard name
  refused : ∀ change, (calculator.perform (.set change)).1 = .set false →
    (calculator.perform (.set change)).2 = calculator
  within : ∀ name, (∀ step ∈ steps, step.KeepsBounds name) →
    (∀ step ∈ steps, step.ForcesWithin .standard name) → calculator.settings.Within name
  tokens : (∀ step ∈ steps, step.KeepsBounds .variableLimit) →
    (∀ step ∈ steps, step.ForcesWithin .standard .variableLimit) →
    ∀ tokens domain, calculator.infer tokens = .ok domain → domain.IsSmall
  names : ∀ names domain, calculator.declare names = .ok domain → domain.IsSmall
  texts : ∀ text tokens domain, tokenize text = .ok tokens →
    calculator.infer tokens = .ok domain → domain.IsSmall

end Calculator

theorem Settings.within_standard (name : Settings.Name) : Settings.standard.Within name := by
  cases name <;> exact ⟨by decide, by decide⟩

/-- A session from the standard settings changes a bound only by writing it. What it sets is in
bounds or is refused without effect, so a setting stays in bounds as long as none of its bounds is
written and no value is forced out of them. The variables of any tokens are then few enough to be
enumerated in words. Those of names and of texts are so whatever the limit is. -/
theorem session_keeps_bounds (steps : List Step) :
    Calculator.StaysBounded steps ((Calculator.ofSettings .standard).performAll steps).2 := by
  have ending := (Calculator.ofSettings .standard).settings_perform_all steps
  generalize ((Calculator.ofSettings .standard).performAll steps).2 = calculator at ending
  change calculator.settings = steps.foldl Settings.after .standard at ending
  have bounds (name : Settings.Name) (keeps : ∀ step ∈ steps, step.KeepsBounds name) :
      calculator.settings.SameBounds .standard name := by
    rw [ending]
    exact Settings.same_bounds_after_all keeps
  have within (name : Settings.Name) (keeps : ∀ step ∈ steps, step.KeepsBounds name)
      (forces : ∀ step ∈ steps, step.ForcesWithin .standard name) :
      calculator.settings.Within name := by
    rw [ending]
    exact Settings.within_after_all keeps forces (Settings.within_standard name)
  refine ⟨bounds, ?refused, within, ?tokens, ?names, ?texts⟩
  case refused =>
    intro change refused
    exact Calculator.perform_set_refused refused
  case tokens =>
    intro keeps forces tokens domain inferred
    have limit := (within .variableLimit keeps forces).2
    rw [(bounds .variableLimit keeps).2] at limit
    have size := ((Variables.infer_eq_ok_iff _ tokens domain).1 inferred).2
    exact Variables.is_small (Nat.le_trans size limit)
  case names =>
    intro names domain declared
    exact Variables.is_small (Variables.size_declare_le declared).2
  case texts =>
    intro text tokens domain cut inferred
    exact Variables.is_small (Variables.size_infer_le cut inferred)

theorem session_changes_bound :
    ¬ ((Calculator.ofSettings .standard).performAll
      [.force .least (.variableLimit 3)]).2.settings.SameBounds .standard .variableLimit := by
  rintro ⟨least, _⟩
  cases least

end Propositional
