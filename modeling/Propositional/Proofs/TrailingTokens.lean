import Propositional.Proofs.Derivability

/-!
Formulas in front of trailing tokens. Where these are allowed, tokens are read when they fall into
a complete expression and a rest that does not go on with a connective. Reading never stops before
a connective that joins what it has read to more, so the tokens fall apart in this way at one place
at most. That some part in front is an expression is not enough: behind `p` in `p ^` there is a
connective, and so nothing is read at all.
-/

namespace Propositional

set_option autoImplicit false

open Interpretation (construction)

theorem Ends.of_apart {rest : List Token}
    (apart : ∀ token ∈ rest.head?, ∀ connective, token.kind ≠ .joining connective) :
    Ends .expression rest := by
  have stops (strength : Strength) : Stops strength rest := by
    rintro token later rfl
    exact Token.joins_of_kind strength (apart token rfl)
  exact ⟨stops .tight, stops .loose⟩

/-- A connective is one of some strength, so what ends an expression begins with none. -/
theorem Ends.apart {rest : List Token} (ends : Ends .expression rest) :
    ∀ token ∈ rest.head?, ∀ connective, token.kind ≠ .joining connective := by
  intro token first connective kind
  obtain ⟨later, split⟩ := List.head?_eq_some_iff.1 first
  have joins := (Token.joins_eq_some_iff connective.strength token connective).2 ⟨kind, rfl⟩
  have stops : Stops connective.strength rest := by
    cases connective.strength with
    | tight => exact ends.1
    | loose => exact ends.2
  rw [stops token later split] at joins
  cases joins

theorem of_tokens_append {front rest : List Token} {formula : Formula} {allowTrailing : Bool}
    (derived : Derives .expression front formula)
    (ends : Ends .expression rest) (allowed : allowTrailing = true) :
    Formula.ofTokens (front ++ rest) allowTrailing = .ok formula :=
  (of_tokens_eq_ok_iff _ _ formula).2 ⟨rest, read_of_derives derived rest ends, .inr allowed⟩

/-- The tokens fall into a complete expression and a rest that does not join it to more. -/
structure FallsApart (tokens front rest : List Token) (formula : Formula) : Prop where
  split : tokens = front ++ rest
  derived : Derives .expression front formula
  apart : ∀ token ∈ rest.head?, ∀ connective, token.kind ≠ .joining connective

namespace FallsApart

variable {tokens front rest : List Token} {formula : Formula}

theorem read (falls : FallsApart tokens front rest formula) :
    construction.read .expression tokens () = ⟨.ok formula, rest, ()⟩ := by
  rw [falls.split]
  exact read_of_derives falls.derived rest (.of_apart falls.apart)

theorem of_read (read : construction.read .expression tokens () = ⟨.ok formula, rest, ()⟩) :
    ∃ front, FallsApart tokens front rest formula := by
  have succeeded : (construction.read .expression tokens ()).outcome = .ok formula := by rw [read]
  obtain ⟨front, split, derived⟩ := builds_read .expression tokens formula succeeded
  have ends := ends_of_read succeeded
  rw [read] at split ends
  exact ⟨front, split, derived, ends.apart⟩

theorem unique {other otherRest : List Token} {otherFormula : Formula}
    (falls : FallsApart tokens front rest formula)
    (otherFalls : FallsApart tokens other otherRest otherFormula) :
    front = other ∧ rest = otherRest ∧ formula = otherFormula := by
  have same := falls.read.symm.trans otherFalls.read
  have rests : rest = otherRest := congrArg Reading.rest same
  have formulas : formula = otherFormula := Except.ok.inj (congrArg Reading.outcome same)
  have fronts := falls.split.symm.trans otherFalls.split
  rw [rests] at fronts
  exact ⟨List.append_cancel_right fronts, rests, formulas⟩

end FallsApart

theorem of_tokens_lenient_iff (tokens : List Token) (formula : Formula) :
    Formula.ofTokens tokens true = .ok formula ↔
      ∃ front rest, FallsApart tokens front rest formula := by
  rw [of_tokens_eq_ok_iff]
  constructor
  · rintro ⟨rest, read, _⟩
    obtain ⟨front, falls⟩ := FallsApart.of_read read
    exact ⟨front, rest, falls⟩
  · rintro ⟨front, rest, falls⟩
    exact ⟨rest, falls.read, .inr rfl⟩

/-- Reading with trailing tokens allowed finds the tree of the part in front, if the tokens fall
apart, and nothing otherwise. They fall apart in one way at most. With trailing tokens rejected the
same tree is found when nothing is left, and otherwise the first token that is left is the fault. -/
theorem lenient_reading_falls_apart (tokens : List Token) (formula : Formula) :
    (Formula.ofTokens tokens true = .ok formula ↔
      ∃ front rest, FallsApart tokens front rest formula) ∧
    (∀ front rest other otherRest otherFormula, FallsApart tokens front rest formula →
      FallsApart tokens other otherRest otherFormula →
      front = other ∧ rest = otherRest ∧ formula = otherFormula) ∧
    ∀ front rest, FallsApart tokens front rest formula →
      (rest = [] → Formula.ofTokens tokens false = .ok formula) ∧
      ∀ token later, rest = token :: later →
        Formula.ofTokens tokens false = .error (.trailing token.offset) := by
  refine ⟨of_tokens_lenient_iff tokens formula, ?unique, ?strict⟩
  case unique =>
    intro front rest other otherRest otherFormula falls otherFalls
    exact falls.unique otherFalls
  case strict =>
    intro front rest falls
    have read := falls.read
    constructor
    · rintro rfl
      exact (of_tokens_eq_ok_iff tokens false formula).2 ⟨[], read, .inl rfl⟩
    · rintro token later rfl
      rw [Formula.ofTokens, Interpretation.readAll, read]
      rfl

/-- A connective behind a formula is not left, although its operand is missing. -/
example : Formula.ofTokens [⟨.letter, "p", 0⟩, ⟨.joining .and, "^", 2⟩] true =
    .error .incomplete := by
  with_unfolding_all rfl

end Propositional
