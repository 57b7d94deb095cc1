import Mathlib.Tactic.SplitIfs
import Propositional.Formula.Postorder
import Propositional.Interpretation

/-!
The uses of an interpretation in which a formula is interpreted: its nodes in postorder, where each
operand is named by the number of the use it results from. Operands are results of earlier uses,
and each result but the last one is an operand once.
-/

namespace Propositional

set_option autoImplicit false

open Interpretation (Use)

namespace Interpretation.Use

def node : Use → Node
  | .letter name => .letter name
  | .not _ => .not
  | .binary connective _ _ => .binary connective

def operands : Use → List Nat
  | .letter _ => []
  | .not operand => [operand]
  | .binary _ left right => [left, right]

end Interpretation.Use

/-- Only results of earlier uses are operands, where the first use has the given number. -/
def PointsBack : Nat → List Use → Prop
  | _, [] => True
  | number, use :: uses =>
      (∀ operand ∈ use.operands, operand < number) ∧ PointsBack (number + 1) uses

/-- How often the result of a use is an operand. -/
def timesUsed (number : Nat) (uses : List Use) : Nat := (uses.flatMap Use.operands).count number

namespace Formula

/-- The number of the use that results in the value of the formula, which is the last one, when the
first has the given number. -/
def result : Formula → Nat → Nat
  | .letter _, start => start
  | .not operand, start => operand.result start + 1
  | .binary _ left right, start => right.result (left.result start + 1) + 1

/-- The uses in which the formula is interpreted, when the first has the given number. -/
def uses : Formula → Nat → List Use
  | .letter name, _ => [.letter name]
  | .not operand, start => operand.uses start ++ [.not (operand.result start)]
  | .binary connective left right, start =>
      left.uses start ++ right.uses (left.result start + 1) ++
        [.binary connective (left.result start) (right.result (left.result start + 1))]

def usesInTurn : List Formula → Nat → List Use
  | [], _ => []
  | formula :: formulas, start =>
      formula.uses start ++ usesInTurn formulas (formula.result start + 1)

theorem length_uses (formula : Formula) (start : Nat) :
    start + (formula.uses start).length = formula.result start + 1 := by
  induction formula generalizing start with
  | letter name => rfl
  | not operand induction =>
      have before := induction start
      simp only [uses, result, List.length_append, List.length_singleton]
      omega
  | binary connective left right leftInduction rightInduction =>
      have before := leftInduction start
      have between := rightInduction (left.result start + 1)
      simp only [uses, result, List.length_append, List.length_singleton]
      omega

theorem start_le_result (formula : Formula) (start : Nat) : start ≤ formula.result start := by
  induction formula generalizing start with
  | letter name => exact Nat.le_refl start
  | not operand induction => exact Nat.le_succ_of_le (induction start)
  | binary connective left right leftInduction rightInduction =>
      have before := leftInduction start
      have between := rightInduction (left.result start + 1)
      simp only [result]
      omega

theorem uses_postorder (formula : Formula) (start : Nat) :
    (formula.uses start).map Use.node = formula.postorder := by
  induction formula generalizing start with
  | letter name => rfl
  | not operand induction =>
      rw [uses, List.map_append, induction]
      rfl
  | binary connective left right leftInduction rightInduction =>
      rw [uses, List.map_append, List.map_append, leftInduction, rightInduction]
      rfl

theorem uses_eq_append_last (formula : Formula) :
    ∃ earlier last, formula.uses 0 = earlier ++ [last] ∧ formula.result 0 = earlier.length := by
  have length := formula.length_uses 0
  cases formula with
  | letter name => exact ⟨[], .letter name, rfl, rfl⟩
  | not operand =>
      refine ⟨operand.uses 0, _, rfl, ?_⟩
      simp only [uses, List.length_append, List.length_singleton] at length
      omega
  | binary connective left right =>
      refine ⟨left.uses 0 ++ right.uses (left.result 0 + 1), _, rfl, ?_⟩
      simp only [uses, List.length_append, List.length_singleton] at length
      rw [List.length_append]
      omega

end Formula

theorem points_back_append (number : Nat) (before after : List Use) :
    PointsBack number (before ++ after) ↔
      PointsBack number before ∧ PointsBack (number + before.length) after := by
  induction before generalizing number with
  | nil => simp [PointsBack]
  | cons use uses induction =>
      have shifted : number + 1 + uses.length = number + (use :: uses).length := by
        rw [List.length_cons]
        omega
      rw [List.cons_append, PointsBack, PointsBack, induction, shifted, and_assoc]

theorem times_used_append (number : Nat) (before after : List Use) :
    timesUsed number (before ++ after) = timesUsed number before + timesUsed number after := by
  rw [timesUsed, List.flatMap_append, List.count_append]
  rfl

namespace Formula

theorem uses_point_back (formula : Formula) (start : Nat) :
    PointsBack start (formula.uses start) := by
  induction formula generalizing start with
  | letter name => simp [uses, PointsBack, Use.operands]
  | not operand induction =>
      rw [uses, points_back_append, operand.length_uses]
      exact ⟨induction start, by simp [PointsBack, Use.operands]⟩
  | binary connective left right leftInduction rightInduction =>
      have after := right.start_le_result (left.result start + 1)
      rw [uses, points_back_append, points_back_append, List.length_append, ← Nat.add_assoc,
        left.length_uses, right.length_uses]
      refine ⟨⟨leftInduction start, rightInduction _⟩, ?_⟩
      simp only [PointsBack, Use.operands, List.mem_cons, List.not_mem_nil, or_false, and_true]
      omega

theorem times_used (formula : Formula) (start number : Nat) :
    timesUsed number (formula.uses start) =
      if start ≤ number ∧ number < formula.result start then 1 else 0 := by
  induction formula generalizing start with
  | letter name =>
      have none : ¬ (start ≤ number ∧ number < (Formula.letter name).result start) := by
        simp only [result]
        omega
      rw [if_neg none]
      rfl
  | not operand induction =>
      have before := operand.start_le_result start
      rw [uses, times_used_append, induction, result]
      simp only [timesUsed, Use.operands, List.flatMap_cons, List.flatMap_nil, List.append_nil,
        List.count_singleton, beq_iff_eq]
      split_ifs <;> omega
  | binary connective left right leftInduction rightInduction =>
      have before := left.start_le_result start
      have after := right.start_le_result (left.result start + 1)
      rw [uses, times_used_append, times_used_append, leftInduction, rightInduction, result]
      simp only [timesUsed, Use.operands, List.flatMap_cons, List.flatMap_nil, List.append_nil,
        List.count_cons, List.count_nil, beq_iff_eq]
      split_ifs <;> omega

theorem times_used_in_turn (formulas : List Formula) (start number : Nat) :
    timesUsed number (usesInTurn formulas start) ≤ 1 ∧
      (number < start → timesUsed number (usesInTurn formulas start) = 0) := by
  induction formulas generalizing start with
  | nil => simp [usesInTurn, timesUsed]
  | cons formula formulas induction =>
      have own := formula.times_used start number
      have after := formula.start_le_result start
      obtain ⟨most, none⟩ := induction (formula.result start + 1)
      rw [usesInTurn, times_used_append, own]
      split_ifs <;> omega

theorem uses_in_turn_point_back (formulas : List Formula) (start : Nat) :
    PointsBack start (usesInTurn formulas start) := by
  induction formulas generalizing start with
  | nil => trivial
  | cons formula formulas induction =>
      rw [usesInTurn, points_back_append, formula.length_uses]
      exact ⟨formula.uses_point_back start, induction _⟩

end Formula

/-- The result of a use is an operand once, and it is one of a later use. -/
structure IsOperandOnce (number : Nat) (uses : List Use) : Prop where
  once : timesUsed number uses = 1
  later : ∃ before use after, uses = before ++ use :: after ∧ number < before.length ∧
    number ∈ use.operands

theorem Formula.is_operand_once {formula : Formula} {number : Nat}
    (earlier : number < formula.result 0) : IsOperandOnce number (formula.uses 0) := by
  have once : timesUsed number (formula.uses 0) = 1 := by
    rw [formula.times_used, if_pos ⟨Nat.zero_le number, earlier⟩]
  have used : number ∈ (formula.uses 0).flatMap Use.operands := by
    apply List.count_pos_iff.1
    exact Nat.lt_of_lt_of_eq Nat.zero_lt_one once.symm
  obtain ⟨use, mem, operand⟩ := List.mem_flatMap.1 used
  obtain ⟨before, after, split⟩ := List.append_of_mem mem
  have back := formula.uses_point_back 0
  rw [split, points_back_append, Nat.zero_add] at back
  exact ⟨once, before, use, after, split, back.2.1 number operand, operand⟩

end Propositional
