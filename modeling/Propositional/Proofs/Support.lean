import Propositional.Proofs.Evaluation

/-!
Evaluation against the variables of a formula. The variables are collected from the left to the
right behind those that are known already, so that each is listed where it appears first, while
evaluation looks up every letter, repetitions included. Both find the same variable without a value,
since a letter that is left out has been found to have one where it stood first.
-/

namespace Propositional

set_option autoImplicit false

theorem Valuation.first_undefined_none_iff (valuation : Valuation) (names : List Variable) :
    valuation.firstUndefined? names = none ↔ ∀ name ∈ names, (valuation name).isSome := by
  simp only [firstUndefined?, List.find?_eq_none, Option.isNone_iff_eq_none,
    Option.isSome_iff_ne_none, ne_eq]

namespace Formula

/-- The variables of a formula behind some that are known, none of them listed again. -/
def collect : Formula → List Variable → List Variable
  | .letter name, known => if name ∈ known then known else known ++ [name]
  | .not operand, known => operand.collect known
  | .binary _ left right, known => right.collect (left.collect known)

theorem collect_erase_dups (formula : Formula) (names : List Variable) :
    formula.collect names.eraseDups = (names ++ formula.letters).eraseDups := by
  induction formula generalizing names with
  | letter name =>
      rw [collect, letters, List.eraseDups_append]
      by_cases known : name ∈ names
      · have nothing : [name].removeAll names = [] := by simp [List.removeAll, known]
        rw [if_pos (List.mem_eraseDups.2 known), nothing, List.eraseDups_nil, List.append_nil]
      · have single : [name].removeAll names = [name] := by simp [List.removeAll, known]
        have fresh : name ∉ names.eraseDups := mt List.mem_eraseDups.1 known
        rw [if_neg fresh, single]
        simp [List.eraseDups_cons]
  | not operand induction => exact induction names
  | binary connective left right leftInduction rightInduction =>
      rw [collect, leftInduction, rightInduction, letters, List.append_assoc]

theorem support_eq_collect (formula : Formula) : formula.support = formula.collect [] := by
  have collected := formula.collect_erase_dups []
  rw [List.eraseDups_nil, List.nil_append] at collected
  exact collected.symm

theorem first_undefined_collect (valuation : Valuation) (formula : Formula)
    (known : List Variable) :
    valuation.firstUndefined? (formula.collect known) =
      (valuation.firstUndefined? known).or (valuation.firstUndefined? formula.letters) := by
  induction formula generalizing known with
  | letter name =>
      rw [collect, letters]
      by_cases repeated : name ∈ known
      · rw [if_pos repeated]
        cases found : valuation.firstUndefined? known with
        | some first => rfl
        | none =>
            -- no known variable is without a value, and so the repeated one is not
            have defined := List.find?_eq_none.1 found name repeated
            have nothing : valuation.firstUndefined? [name] = none := List.find?_cons_of_neg defined
            rw [Option.none_or, nothing]
      · rw [if_neg repeated, Valuation.first_undefined_append]
  | not operand induction => exact induction known
  | binary connective left right leftInduction rightInduction =>
      rw [collect, rightInduction, leftInduction, letters, Valuation.first_undefined_append,
        Option.or_assoc]

theorem first_undefined_support (valuation : Valuation) (formula : Formula) :
    valuation.firstUndefined? formula.support = valuation.firstUndefined? formula.letters := by
  rw [support_eq_collect, first_undefined_collect]
  rfl

theorem evaluate_eq_ok_iff (valuation : Valuation) (formula : Formula) :
    (∃ value, formula.evaluate valuation = .ok value) ↔
      valuation.firstUndefined? formula.support = none := by
  rw [evaluate_eq, ← first_undefined_support]
  cases valuation.firstUndefined? formula.support <;> simp

theorem evaluate_eq_error_iff (valuation : Valuation) (formula : Formula) (failure : Failure) :
    formula.evaluate valuation = .error failure ↔
      ∃ name, valuation.firstUndefined? formula.support = some name ∧
        failure = .undefined name := by
  rw [evaluate_eq, ← first_undefined_support]
  cases valuation.firstUndefined? formula.support <;> simp [eq_comm]

theorem evaluate_congr {first second : Valuation} (formula : Formula)
    (agree : ∀ name ∈ formula.letters, first name = second name) :
    formula.evaluate first = formula.evaluate second := by
  induction formula with
  | letter name =>
      rw [evaluate, evaluate, Valuation.lookup, Valuation.lookup, agree name (by simp [letters])]
  | not operand induction => rw [evaluate, evaluate, induction agree]
  | binary connective left right leftInduction rightInduction =>
      have leftSame := leftInduction (by
        intro name member
        exact agree name (List.mem_append_left _ member))
      have rightSame := rightInduction (by
        intro name member
        exact agree name (List.mem_append_right _ member))
      rw [evaluate, evaluate, leftSame, rightSame]

/-- A formula has a value exactly when all the variables collected from it have one. Otherwise the
first of them that has none is reported. The values of other variables make no difference. -/
theorem evaluation_rests_on_support (formula : Formula) (valuation : Valuation) :
    formula.support = formula.collect [] ∧
    ((∃ value, formula.evaluate valuation = .ok value) ↔
      ∀ name ∈ formula.support, (valuation name).isSome) ∧
    (∀ failure, formula.evaluate valuation = .error failure ↔
      ∃ name, valuation.firstUndefined? formula.support = some name ∧
        failure = .undefined name) ∧
    ∀ other : Valuation, (∀ name ∈ formula.support, valuation name = other name) →
      formula.evaluate valuation = formula.evaluate other := by
  refine ⟨support_eq_collect formula, ?defined, evaluate_eq_error_iff valuation formula,
    ?agreeing⟩
  case defined => rw [evaluate_eq_ok_iff, Valuation.first_undefined_none_iff]
  case agreeing =>
    intro other agree
    apply evaluate_congr
    intro name member
    exact agree name ((mem_support formula name).2 member)

/-- The left operand decides the value, and still the right one must have a value. -/
example : (Formula.binary .or (.letter 'p') (.letter 'q')).evaluate
    (fun name => if name = 'p' then some true else none) = .error (.undefined 'q') := by
  rfl

end Formula

end Propositional
