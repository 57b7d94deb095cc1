import Propositional.Proofs.Interpreting

/-!
Evaluation of a tree and evaluation while reading. A tree has a value when all of its letters do,
and otherwise the first letter without one is reported. Reading under a valuation agrees with
reading to a tree which is then evaluated; where there is no tree, the letters that were taken
before the fault come first.
-/

namespace Propositional

set_option autoImplicit false

open Interpretation (construction evaluation)

namespace Valuation

def firstUndefined? (valuation : Valuation) (names : List Variable) : Option Variable :=
  names.find? fun name => (valuation name).isNone

theorem first_undefined_append (valuation : Valuation) (before after : List Variable) :
    valuation.firstUndefined? (before ++ after) =
      (valuation.firstUndefined? before).or (valuation.firstUndefined? after) :=
  List.find?_append

end Valuation

namespace Formula

theorem mem_support (formula : Formula) (name : Variable) :
    name ∈ formula.support ↔ name ∈ formula.letters := List.mem_eraseDups

/-- The value that a formula has when a variable without a value counts as false. -/
def truthOn (valuation : Valuation) (formula : Formula) : Bool :=
  formula.truth fun name => (valuation name).getD false

theorem evaluate_eq (valuation : Valuation) (formula : Formula) :
    formula.evaluate valuation =
      match valuation.firstUndefined? formula.letters with
      | some name => .error (.undefined name)
      | none => .ok (formula.truthOn valuation) := by
  induction formula with
  | letter name =>
      cases found : valuation name with
      | some value =>
          simp [evaluate, Valuation.lookup, Valuation.firstUndefined?, letters, truthOn, truth,
            found]
      | none => simp [evaluate, Valuation.lookup, Valuation.firstUndefined?, letters, found]
  | not operand induction =>
      rw [evaluate, induction, letters]
      cases valuation.firstUndefined? operand.letters with
      | some name => rfl
      | none => rfl
  | binary connective left right leftInduction rightInduction =>
      rw [evaluate, leftInduction, rightInduction, letters, Valuation.first_undefined_append]
      cases valuation.firstUndefined? left.letters with
      | some name => rfl
      | none =>
          cases valuation.firstUndefined? right.letters with
          | some name => rfl
          | none => rfl

end Formula

namespace Interpretation

theorem interpret_evaluation (valuation : Valuation) (formula : Formula) :
    (evaluation valuation).interpret formula () = (formula.evaluate valuation, ()) := by
  induction formula with
  | letter name => rfl
  | not operand induction =>
      rw [interpret, induction, Formula.evaluate]
      cases operand.evaluate valuation with
      | error failure => rfl
      | ok value => rfl
  | binary connective left right leftInduction rightInduction =>
      rw [interpret, leftInduction, Formula.evaluate]
      cases left.evaluate valuation with
      | error failure => rfl
      | ok leftValue =>
          simp only [rightInduction]
          cases right.evaluate valuation with
          | error failure => rfl
          | ok rightValue => rfl

theorem interpret_all_evaluation (valuation : Valuation) (formulas : List Formula) :
    (evaluation valuation).interpretAll formulas () =
      match valuation.firstUndefined? (formulas.flatMap Formula.letters) with
      | some name => (.error (.undefined name), ())
      | none => (.ok (formulas.map (Formula.truthOn valuation)), ()) := by
  induction formulas with
  | nil => rfl
  | cons formula formulas induction =>
      rw [interpretAll, interpret_evaluation, Formula.evaluate_eq, List.flatMap_cons,
        Valuation.first_undefined_append]
      cases valuation.firstUndefined? formula.letters with
      | some name => rfl
      | none =>
          simp only [induction, Option.none_or]
          cases valuation.firstUndefined? (formulas.flatMap Formula.letters) with
          | some name => rfl
          | none => rfl

end Interpretation

/-- The tokens which reading them to the tree of an expression takes. -/
def tokensTaken (tokens : List Token) : List Token :=
  tokens.take (tokens.length - (construction.read .expression tokens ()).rest.length)

theorem tokens_taken_append (tokens : List Token) :
    tokensTaken tokens ++ (construction.read .expression tokens ()).rest = tokens := by
  obtain ⟨taken, split⟩ := construction.rest_read_suffix .expression tokens ()
  have count : tokens.length - (construction.read .expression tokens ()).rest.length =
      taken.length := by
    have lengths := congrArg List.length split
    rw [List.length_append] at lengths
    omega
  have front : (taken ++ (construction.read .expression tokens ()).rest).take taken.length =
      taken := List.take_left
  rw [split] at front
  rw [tokensTaken, count, front, split]

/-- The variables of the letters which reading tokens to the tree of an expression takes. -/
def lettersTaken (tokens : List Token) : List Variable := (tokensTaken tokens).filterMap Token.name?

theorem letters_taken_eq {tokens : List Token} {completed : List Formula}
    (account : Completed tokens (construction.read .expression tokens ()) completed) :
    lettersTaken tokens = completed.flatMap Formula.letters := by
  obtain ⟨taken, split, letters⟩ := account.letters
  have whole := tokens_taken_append tokens
  have same : tokensTaken tokens = taken := by
    apply List.append_cancel_right
    exact whole.trans split
  rw [lettersTaken, same, letters]

theorem follows_evaluation {valuation : Valuation} {tree : Reading Unit Formula}
    {completed : List Formula} {run : Reading Unit Bool}
    (follows : (evaluation valuation).Follows tree completed () run) :
    match valuation.firstUndefined? (completed.flatMap Formula.letters) with
    | some name => run.outcome = .error (.undefined name)
    | none => run = ⟨tree.outcome.map (Formula.truthOn valuation), tree.rest, ()⟩ := by
  cases follows with
  | @value formula rest _ later value interpreted =>
      rw [Interpretation.interpret_evaluation, Formula.evaluate_eq] at interpreted
      rw [List.flatMap_cons, List.flatMap_nil, List.append_nil]
      cases found : valuation.firstUndefined? formula.letters with
      | some name =>
          rw [found] at interpreted
          cases interpreted
      | none =>
          rw [found] at interpreted
          cases interpreted
          rfl
  | @fault failure rest _ _ later values interpreted =>
      rw [Interpretation.interpret_all_evaluation] at interpreted
      cases found : valuation.firstUndefined? (completed.flatMap Formula.letters) with
      | some name =>
          rw [found] at interpreted
          cases interpreted
      | none => rfl
  | @cut _ _ failure rest _ later interpreted =>
      rw [Interpretation.interpret_all_evaluation] at interpreted
      cases found : valuation.firstUndefined? (completed.flatMap Formula.letters) with
      | some name =>
          rw [found] at interpreted
          cases interpreted
          rfl
      | none =>
          rw [found] at interpreted
          cases interpreted

/-- Reading under a valuation stops at the first letter without a value, if it takes one that
has none, and otherwise reads as far as reading to a tree. -/
theorem read_evaluation (valuation : Valuation) (tokens : List Token) :
    match valuation.firstUndefined? (lettersTaken tokens) with
    | some name =>
        ((evaluation valuation).read .expression tokens ()).outcome = .error (.undefined name)
    | none =>
        (evaluation valuation).read .expression tokens () =
          ⟨(construction.read .expression tokens ()).outcome.map (Formula.truthOn valuation),
            (construction.read .expression tokens ()).rest, ()⟩ := by
  obtain ⟨completed, account, follows⟩ := accounted_read .expression tokens
  rw [letters_taken_eq account]
  exact follows_evaluation (follows Unit Bool (evaluation valuation) ())

theorem letters_taken_of_tree {tokens : List Token} {allowTrailing : Bool} {formula : Formula}
    (tree : Formula.ofTokens tokens allowTrailing = .ok formula) :
    lettersTaken tokens = formula.letters := by
  obtain ⟨rest, read, _⟩ := (of_tokens_eq_ok_iff tokens allowTrailing formula).1 tree
  obtain ⟨completed, account, _⟩ := accounted_read .expression tokens
  have single : completed = [formula] := account.single formula (by rw [read])
  rw [letters_taken_eq account, single]
  simp

theorem evaluate_tokens_eq (valuation : Valuation) (tokens : List Token) (allowTrailing : Bool) :
    evaluateTokens valuation tokens allowTrailing =
      match valuation.firstUndefined? (lettersTaken tokens) with
      | some name => .error (.undefined name)
      | none => (Formula.ofTokens tokens allowTrailing).map (Formula.truthOn valuation) := by
  have read := read_evaluation valuation tokens
  cases found : valuation.firstUndefined? (lettersTaken tokens) with
  | some name =>
      rw [found] at read
      unfold evaluateTokens Interpretation.readAll
      match run : (evaluation valuation).read .expression tokens () with
      | ⟨.error failure, rest, ()⟩ =>
          rw [run] at read
          exact read
      | ⟨.ok value, rest, ()⟩ =>
          rw [run] at read
          cases read
  | none =>
      rw [found] at read
      simp only at read ⊢
      unfold evaluateTokens Formula.ofTokens Interpretation.readAll
      rw [read]
      match construction.read .expression tokens () with
      | ⟨.error failure, rest, ()⟩ => rfl
      | ⟨.ok formula, [], ()⟩ => rfl
      | ⟨.ok formula, token :: rest, ()⟩ => cases allowTrailing <;> rfl

theorem evaluate_tokens_of_tree {tokens : List Token} {allowTrailing : Bool} {formula : Formula}
    (valuation : Valuation) (tree : Formula.ofTokens tokens allowTrailing = .ok formula) :
    evaluateTokens valuation tokens allowTrailing = formula.evaluate valuation := by
  rw [evaluate_tokens_eq, Formula.evaluate_eq, letters_taken_of_tree tree, tree]
  rfl

/-- Where reading to a tree succeeds, evaluating while reading is evaluating the tree. Where it
fails, the first letter that it takes and that has no value is reported before its fault. -/
theorem evaluate_tokens_agrees_with_tree (valuation : Valuation) (tokens : List Token)
    (allowTrailing : Bool) :
    (∀ formula, Formula.ofTokens tokens allowTrailing = .ok formula →
      evaluateTokens valuation tokens allowTrailing = formula.evaluate valuation) ∧
    ∀ failure, Formula.ofTokens tokens allowTrailing = .error failure →
      evaluateTokens valuation tokens allowTrailing =
        match valuation.firstUndefined? (lettersTaken tokens) with
        | some name => .error (.undefined name)
        | none => .error failure := by
  constructor
  · intro formula tree
    exact evaluate_tokens_of_tree valuation tree
  · intro failure fault
    rw [evaluate_tokens_eq, fault]
    rfl

end Propositional
