import Propositional.Reading

/-!
Induction over readings. A phrase is read through a phrase of a lower rank from the same tokens,
or through phrases from fewer tokens; this is the order of `reading_induction`. Going on behind
connectives is a loop, for which `join_induction` gives one step and `join_invariant` the rule.
-/

namespace Propositional

set_option autoImplicit false

theorem reading_induction {motive : Phrase → List Token → Prop}
    (nothing : ∀ phrase, motive phrase [])
    (secondary : ∀ token rest, motive .expression rest → motive .secondary (token :: rest))
    (primary : ∀ token rest, motive .secondary rest → motive .secondary (token :: rest) →
      motive .primary (token :: rest))
    (whole : ∀ (strength : Strength) (tokens : List Token), motive strength.operand tokens →
      (∀ rest : List Token, rest.length < tokens.length → motive strength.operand rest) →
      motive strength.whole tokens)
    (phrase : Phrase) (tokens : List Token) : motive phrase tokens := by
  match phrase, tokens with
  | .secondary, [] => exact nothing _
  | .primary, [] => exact nothing _
  | .secondary, token :: rest =>
      exact secondary token rest
        (reading_induction nothing secondary primary whole .expression rest)
  | .primary, token :: rest =>
      exact primary token rest
        (reading_induction nothing secondary primary whole .secondary rest)
        (reading_induction nothing secondary primary whole .secondary (token :: rest))
  | .term, tokens =>
      exact whole .tight tokens
        (reading_induction nothing secondary primary whole .primary tokens)
        (fun rest _ => reading_induction nothing secondary primary whole .primary rest)
  | .expression, tokens =>
      exact whole .loose tokens
        (reading_induction nothing secondary primary whole .term tokens)
        (fun rest _ => reading_induction nothing secondary primary whole .term rest)
termination_by 4 * tokens.length + phrase.rank
decreasing_by
  all_goals simp only [Phrase.rank, List.length_cons]
  all_goals omega

/-- The tokens do not go on with a connective of the given strength. -/
def Stops (strength : Strength) (tokens : List Token) : Prop :=
  ∀ token rest, tokens = token :: rest → token.joins? strength = none

theorem stops_nil (strength : Strength) : Stops strength [] := by
  intro token rest same
  cases same

theorem stops_cons (strength : Strength) (token : Token) (rest : List Token) :
    Stops strength (token :: rest) ↔ token.joins? strength = none := by
  constructor
  · intro stops
    exact stops token rest rfl
  · intro apart other suffix same
    cases same
    exact apart

theorem joins_other_strength {strength other : Strength} {token : Token} {connective : Connective}
    (joins : token.joins? strength = some connective) (different : strength ≠ other) :
    token.joins? other = none := by
  obtain ⟨kind, fits⟩ := (Token.joins_eq_some_iff _ _ _).1 joins
  have apart : connective.strength ≠ other := by rw [fits]; exact different
  simp only [Token.joins?, kind, if_neg apart]

theorem stops_of_joins {strength other : Strength} {token : Token} {connective : Connective}
    (rest : List Token) (joins : token.joins? strength = some connective)
    (different : strength ≠ other) : Stops other (token :: rest) :=
  (stops_cons other token rest).2 (joins_other_strength joins different)

namespace Reading

variable {State Value : Type}

/-- Nothing follows what was read that would be read as well at the given strength. -/
def IsComplete (strength : Strength) (reading : Reading State Value) : Prop :=
  ∀ value, reading.outcome = .ok value → Stops strength reading.rest

theorem is_complete_error (strength : Strength) (failure : Failure) (rest : List Token)
    (state : State) : (⟨.error failure, rest, state⟩ : Reading State Value).IsComplete strength := by
  intro value succeeded
  cases succeeded

end Reading

namespace Interpretation

variable {State Value : Type} (interpretation : Interpretation State Value)

theorem read_whole (strength : Strength) (tokens : List Token) (state : State) :
    interpretation.read strength.whole tokens state =
      interpretation.join strength (interpretation.read strength.operand tokens state) := by
  cases strength with
  | tight => exact interpretation.read_term tokens state
  | loose => exact interpretation.read_expression tokens state

theorem join_complete (strength : Strength) (left : Reading State Value)
    (complete : left.IsComplete strength) : interpretation.join strength left = left := by
  match left with
  | ⟨.error failure, rest, state⟩ => exact interpretation.join_error strength failure rest state
  | ⟨.ok value, [], state⟩ => exact interpretation.join_nothing strength value state
  | ⟨.ok value, token :: rest, state⟩ =>
      have apart := (stops_cons strength token rest).1 (complete value rfl)
      rw [join_token, apart]

theorem join_stops (strength : Strength) (value : Value) (rest : List Token) (state : State)
    (stops : Stops strength rest) :
    interpretation.join strength ⟨.ok value, rest, state⟩ = ⟨.ok value, rest, state⟩ := by
  apply interpretation.join_complete
  intro _ _
  exact stops

theorem join_connective {strength : Strength} {token : Token} {connective : Connective}
    (joins : token.joins? strength = some connective) (value : Value) (rest : List Token)
    (state : State) :
    interpretation.join strength ⟨.ok value, token :: rest, state⟩ =
      interpretation.join strength
        ((interpretation.read strength.operand rest state).apply
          (interpretation.binary connective value)) := by
  rw [join_token, joins]

/-- What holds of the readings behind which nothing is read, and is carried back over a connective
with the operand behind it, holds of all readings. -/
theorem join_induction (strength : Strength) {motive : Reading State Value → Prop}
    (complete : ∀ left, left.IsComplete strength → motive left)
    (step : ∀ value token rest state connective, token.joins? strength = some connective →
      motive ((interpretation.read strength.operand rest state).apply
        (interpretation.binary connective value)) →
      motive ⟨.ok value, token :: rest, state⟩)
    (left : Reading State Value) : motive left := by
  match left with
  | ⟨.error failure, rest, state⟩ =>
      exact complete _ (Reading.is_complete_error strength failure rest state)
  | ⟨.ok value, [], state⟩ =>
      exact complete _ (by intro _ _; exact stops_nil strength)
  | ⟨.ok value, token :: rest, state⟩ =>
      cases joins : token.joins? strength with
      | none =>
          apply complete
          intro _ _
          exact (stops_cons strength token rest).2 joins
      | some connective =>
          apply step value token rest state connective joins
          exact join_induction strength complete step _
termination_by left.rest.length
decreasing_by
  rw [Reading.rest_apply]
  have shorter := (interpretation.rest_read_suffix strength.operand rest state).length_le
  simp only [List.length_cons]
  omega

theorem is_complete_join (strength : Strength) (left : Reading State Value) :
    (interpretation.join strength left).IsComplete strength := by
  induction left using interpretation.join_induction strength with
  | complete left complete =>
      rw [interpretation.join_complete strength left complete]
      exact complete
  | step value token rest state connective joins later =>
      rw [interpretation.join_connective joins]
      exact later

/-- The rule for the loop: what holds at first and is kept over each connective, together with
the operand behind it, holds in the end. Operands are read from an end part of the tokens. -/
theorem join_invariant (strength : Strength) {tokens : List Token}
    {invariant : Reading State Value → Prop}
    (step : ∀ value token rest state connective, token :: rest <:+ tokens →
      token.joins? strength = some connective → invariant ⟨.ok value, token :: rest, state⟩ →
      invariant ((interpretation.read strength.operand rest state).apply
        (interpretation.binary connective value)))
    (left : Reading State Value) (within : left.rest <:+ tokens) (holds : invariant left) :
    invariant (interpretation.join strength left) := by
  induction left using interpretation.join_induction strength with
  | complete left complete =>
      rw [interpretation.join_complete strength left complete]
      exact holds
  | step value token rest state connective joins later =>
      rw [interpretation.join_connective joins]
      apply later
      · rw [Reading.rest_apply]
        have shorter := interpretation.rest_read_suffix strength.operand rest state
        exact shorter.trans ((List.suffix_cons token rest).trans within)
      · exact step value token rest state connective within joins holds

end Interpretation

end Propositional
