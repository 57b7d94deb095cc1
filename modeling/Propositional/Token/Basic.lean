import Propositional.Connective
import Propositional.Variable

/-!
Tokens: the kind of a lexeme, the text that was matched and where it stood.
-/

namespace Propositional

set_option autoImplicit false

inductive Kind where
  | joining (connective : Connective)
  | negation
  | opening
  | closing
  | letter
  deriving DecidableEq

structure Token where
  kind : Kind
  literal : String
  offset : Nat
  deriving DecidableEq

namespace Token

/-- The variable which a token names: the first character of a letter's literal. -/
def name? (token : Token) : Option Variable :=
  match token.kind with
  | .letter => token.literal.toList.head?
  | _ => none

/-- All that matters of a token before it is reported. -/
def shape (token : Token) : Kind × Option Variable := (token.kind, token.name?)

def joins? (strength : Strength) (token : Token) : Option Connective :=
  match token.kind with
  | .joining connective => if connective.strength = strength then some connective else none
  | _ => none

theorem joins_eq_some_iff (strength : Strength) (token : Token) (connective : Connective) :
    token.joins? strength = some connective ↔
      token.kind = .joining connective ∧ connective.strength = strength := by
  unfold joins?
  cases token.kind <;> simp
  constructor
  · rintro ⟨fits, rfl⟩
    exact ⟨rfl, fits⟩
  · rintro ⟨rfl, fits⟩
    exact ⟨fits, rfl⟩

theorem joins_of_shape {first second : Token} (strength : Strength)
    (same : first.shape = second.shape) : first.joins? strength = second.joins? strength := by
  have kinds : first.kind = second.kind := congrArg Prod.fst same
  unfold joins?
  rw [kinds]

theorem kind_of_name {token : Token} {name : Variable} (named : token.name? = some name) :
    token.kind = .letter := by
  unfold name? at named
  split at named
  next same => exact same
  next => cases named

theorem joins_of_kind {token : Token} (strength : Strength)
    (apart : ∀ connective, token.kind ≠ .joining connective) : token.joins? strength = none := by
  unfold joins?
  split
  next connective same => exact absurd same (apart connective)
  next => rfl

theorem name_of_kind {token : Token} (notLetter : token.kind ≠ .letter) : token.name? = none := by
  unfold name?
  split
  next same => exact absurd same notLetter
  next => rfl

theorem name_of_joins {strength : Strength} {token : Token} {connective : Connective}
    (joins : token.joins? strength = some connective) : token.name? = none := by
  have kind := ((joins_eq_some_iff _ _ _).1 joins).1
  apply name_of_kind
  rw [kind]
  exact Kind.noConfusion

end Token

end Propositional
