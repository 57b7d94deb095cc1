import Propositional.Proofs.Evaluation
import Propositional.Proofs.Uses

/-!
Reading with a record of the uses made of the interpretation. They are the uses of the formulas
which reading completes, up to the first letter that fails: this letter is recorded as well, and
nothing behind it.
-/

namespace Propositional

set_option autoImplicit false

open Interpretation (construction recording Use)

def Interpretation.Use.fault? (isUndefined : Variable → Bool) : Use → Option Variable
  | .letter name => if isUndefined name then some name else none
  | _ => none

def firstFault? (isUndefined : Variable → Bool) (uses : List Use) : Option Variable :=
  uses.findSome? (Use.fault? isUndefined)

/-- The uses up to the first that fails, which is the last to be kept. -/
def cutAtFault (isUndefined : Variable → Bool) : List Use → List Use
  | [] => []
  | use :: uses =>
      match use.fault? isUndefined with
      | some _ => [use]
      | none => use :: cutAtFault isUndefined uses

/-- What uses result in: the given outcome, unless one of them fails before it is reached. -/
def unlessFault {Value : Type} (isUndefined : Variable → Bool) (uses : List Use)
    (outcome : Except Failure Value) : Except Failure Value :=
  match firstFault? isUndefined uses with
  | some name => .error (.undefined name)
  | none => outcome

section

variable (isUndefined : Variable → Bool)

theorem first_fault_append (before after : List Use) :
    firstFault? isUndefined (before ++ after) =
      (firstFault? isUndefined before).or (firstFault? isUndefined after) :=
  List.findSome?_append

variable {isUndefined}

theorem cut_at_fault_append {before : List Use} {name : Variable}
    (fault : firstFault? isUndefined before = some name) (after : List Use) :
    cutAtFault isUndefined (before ++ after) = cutAtFault isUndefined before := by
  induction before with
  | nil => cases fault
  | cons use uses induction =>
      rw [firstFault?, List.findSome?_cons] at fault
      rw [List.cons_append, cutAtFault, cutAtFault]
      cases here : use.fault? isUndefined with
      | some other => rfl
      | none =>
          rw [here] at fault
          simp only [induction fault]

theorem cut_at_fault_behind {before : List Use} (none : firstFault? isUndefined before = none)
    (after : List Use) :
    cutAtFault isUndefined (before ++ after) = before ++ cutAtFault isUndefined after := by
  induction before with
  | nil => rfl
  | cons use uses induction =>
      rw [firstFault?, List.findSome?_cons] at none
      rw [List.cons_append, cutAtFault]
      cases here : use.fault? isUndefined with
      | some other =>
          rw [here] at none
          cases none
      | none =>
          rw [here] at none
          simp only [induction none, List.cons_append]

theorem cut_at_no_fault {uses : List Use} (none : firstFault? isUndefined uses = none) :
    cutAtFault isUndefined uses = uses := by
  have behind := cut_at_fault_behind none []
  rw [List.append_nil] at behind
  exact behind.trans (List.append_nil uses)

theorem unless_fault_some {Value : Type} {uses : List Use} {name : Variable}
    (fault : firstFault? isUndefined uses = some name) (outcome : Except Failure Value) :
    unlessFault isUndefined uses outcome = .error (.undefined name) := by
  rw [unlessFault, fault]

theorem unless_fault_none {Value : Type} {uses : List Use}
    (none : firstFault? isUndefined uses = none) (outcome : Except Failure Value) :
    unlessFault isUndefined uses outcome = outcome := by
  rw [unlessFault, none]

theorem unless_fault_before {Value : Type} {before : List Use} {name : Variable}
    (fault : firstFault? isUndefined before = some name) (after : List Use)
    (outcome : Except Failure Value) :
    unlessFault isUndefined (before ++ after) outcome = .error (.undefined name) := by
  apply unless_fault_some
  rw [first_fault_append, fault, Option.some_or]

theorem unless_fault_behind {Value : Type} {before : List Use}
    (none : firstFault? isUndefined before = none) (after : List Use)
    (outcome : Except Failure Value) :
    unlessFault isUndefined (before ++ after) outcome = unlessFault isUndefined after outcome := by
  rw [unlessFault, first_fault_append, none, Option.none_or, unlessFault]

variable (isUndefined) in
theorem cut_at_fault_prefix (uses : List Use) : cutAtFault isUndefined uses <+: uses := by
  induction uses with
  | nil => exact List.prefix_refl []
  | cons use uses induction =>
      rw [cutAtFault]
      cases use.fault? isUndefined with
      | some name => exact List.prefix_append [use] uses
      | none => exact List.prefix_cons_inj use |>.2 induction

/-- Some uses are made up to the first letter of an undefined variable, which is made as well. -/
structure EndsAt (isUndefined : Variable → Bool) (uses made : List Use) (name : Variable) :
    Prop where
  undefined : isUndefined name = true
  split : ∃ before after, uses = before ++ .letter name :: after ∧ made = before ++ [.letter name] ∧
    ∀ earlier, .letter earlier ∈ before → isUndefined earlier = false

theorem fault_eq_some_iff (use : Use) (name : Variable) :
    use.fault? isUndefined = some name ↔ use = .letter name ∧ isUndefined name = true := by
  cases use with
  | letter written =>
      rw [Use.fault?, Use.letter.injEq]
      split
      next undefined =>
        constructor
        · rintro ⟨⟩
          exact ⟨rfl, undefined⟩
        · rintro ⟨rfl, _⟩
          rfl
      next defined =>
        constructor
        · rintro ⟨⟩
        · rintro ⟨rfl, undefined⟩
          exact absurd undefined defined
  | not operand => simp [Use.fault?]
  | binary connective left right => simp [Use.fault?]

theorem ends_at_of_fault {uses : List Use} {name : Variable}
    (fault : firstFault? isUndefined uses = some name) :
    EndsAt isUndefined uses (cutAtFault isUndefined uses) name := by
  induction uses with
  | nil => cases fault
  | cons use uses induction =>
      rw [firstFault?, List.findSome?_cons] at fault
      rw [cutAtFault]
      cases here : use.fault? isUndefined with
      | none =>
          rw [here] at fault
          obtain ⟨undefined, before, after, split, made, defined⟩ := induction fault
          refine ⟨undefined, use :: before, after, ?_, congrArg (use :: ·) made, ?_⟩
          · rw [split, List.cons_append]
          · intro earlier mem
            rcases List.mem_cons.1 mem with rfl | mem
            · apply Bool.eq_false_iff.2
              intro fails
              rw [(fault_eq_some_iff _ earlier).2 ⟨rfl, fails⟩] at here
              cases here
            · exact defined earlier mem
      | some other =>
          rw [here] at fault
          cases fault
          obtain ⟨rfl, undefined⟩ := (fault_eq_some_iff use name).1 here
          exact ⟨undefined, [], uses, rfl, rfl, by simp⟩

theorem first_fault_of_all_defined (uses : List Use) :
    firstFault? (fun _ => false) uses = none := by
  apply List.findSome?_eq_none_iff.2
  intro use _
  cases use <;> rfl

theorem cut_at_fault_of_all_defined (uses : List Use) : cutAtFault (fun _ => false) uses = uses :=
  cut_at_no_fault (first_fault_of_all_defined uses)

end

section

variable {isUndefined : Variable → Bool}

theorem length_record (formula : Formula) (record : List Use) :
    ((formula.uses record.length).reverse ++ record).length = formula.result record.length + 1 := by
  rw [List.length_append, List.length_reverse, Nat.add_comm, formula.length_uses]

theorem interpret_recording (formula : Formula) (record : List Use) :
    (recording isUndefined).interpret formula record =
      (unlessFault isUndefined (formula.uses record.length) (.ok (formula.result record.length)),
        (cutAtFault isUndefined (formula.uses record.length)).reverse ++ record) := by
  induction formula generalizing record with
  | letter name =>
      cases undefined : isUndefined name <;>
        simp [Interpretation.interpret, recording, Formula.uses, Formula.result, unlessFault,
          firstFault?, cutAtFault, Use.fault?, undefined]
  | not operand induction =>
      rw [Interpretation.interpret, induction, Formula.uses, Formula.result]
      cases fault : firstFault? isUndefined (operand.uses record.length) with
      | some name =>
          rw [unless_fault_some fault, unless_fault_before fault, cut_at_fault_append fault]
      | none =>
          have length := length_record operand record
          rw [unless_fault_none fault, unless_fault_behind fault, cut_at_no_fault fault,
            cut_at_fault_behind fault, List.reverse_append, List.append_assoc]
          simp only [recording, length]
          rfl
  | binary connective left right leftInduction rightInduction =>
      rw [Interpretation.interpret, leftInduction, Formula.uses, Formula.result, List.append_assoc]
      cases leftFault : firstFault? isUndefined (left.uses record.length) with
      | some name =>
          rw [unless_fault_some leftFault, unless_fault_before leftFault,
            cut_at_fault_append leftFault]
      | none =>
          have leftLength := length_record left record
          rw [unless_fault_none leftFault, unless_fault_behind leftFault,
            cut_at_no_fault leftFault, cut_at_fault_behind leftFault, List.reverse_append,
            List.append_assoc]
          simp only [rightInduction, leftLength]
          cases rightFault : firstFault? isUndefined
              (right.uses (left.result record.length + 1)) with
          | some name =>
              rw [unless_fault_some rightFault, unless_fault_before rightFault,
                cut_at_fault_append rightFault]
          | none =>
              have rightLength := length_record right ((left.uses record.length).reverse ++ record)
              rw [leftLength] at rightLength
              rw [unless_fault_none rightFault, unless_fault_behind rightFault,
                cut_at_no_fault rightFault, cut_at_fault_behind rightFault, List.reverse_append,
                List.append_assoc]
              simp only [recording, rightLength]
              rfl

theorem uses_in_turn_cons (formula : Formula) (formulas : List Formula) (record : List Use) :
    Formula.usesInTurn (formula :: formulas) record.length =
      formula.uses record.length ++
        Formula.usesInTurn formulas ((formula.uses record.length).reverse ++ record).length := by
  rw [Formula.usesInTurn, length_record]

variable (isUndefined) in
theorem interpret_all_recording (formulas : List Formula) (record : List Use) :
    ∃ numbers, (recording isUndefined).interpretAll formulas record =
      (unlessFault isUndefined (Formula.usesInTurn formulas record.length) (.ok numbers),
        (cutAtFault isUndefined (Formula.usesInTurn formulas record.length)).reverse ++ record) := by
  induction formulas generalizing record with
  | nil => exact ⟨[], rfl⟩
  | cons formula formulas induction =>
      rw [uses_in_turn_cons, Interpretation.interpretAll, interpret_recording]
      cases fault : firstFault? isUndefined (formula.uses record.length) with
      | some name =>
          refine ⟨[], ?_⟩
          rw [unless_fault_some fault, unless_fault_before fault, cut_at_fault_append fault]
      | none =>
          obtain ⟨numbers, interpreted⟩ :=
            induction ((formula.uses record.length).reverse ++ record)
          refine ⟨formula.result record.length :: numbers, ?_⟩
          rw [unless_fault_none fault, unless_fault_behind fault, cut_at_no_fault fault,
            cut_at_fault_behind fault, List.reverse_append, List.append_assoc]
          simp only [interpreted]
          cases laterFault : firstFault? isUndefined (Formula.usesInTurn formulas
              ((formula.uses record.length).reverse ++ record).length) with
          | some name => rw [unless_fault_some laterFault, unless_fault_some laterFault]
          | none => rw [unless_fault_none laterFault, unless_fault_none laterFault]

theorem follows_recording {tree : Reading Unit Formula} {completed : List Formula}
    {run : Reading (List Use) Nat}
    (follows : (recording isUndefined).Follows tree completed [] run) :
    match firstFault? isUndefined (Formula.usesInTurn completed 0) with
    | some name => ∃ rest, run = ⟨.error (.undefined name), rest,
        (cutAtFault isUndefined (Formula.usesInTurn completed 0)).reverse⟩
    | none => run = ⟨tree.outcome.map (Formula.result · 0), tree.rest,
        (Formula.usesInTurn completed 0).reverse⟩ := by
  cases follows with
  | @value formula rest _ later value interpreted =>
      rw [interpret_recording, List.length_nil, List.append_nil] at interpreted
      rw [Formula.usesInTurn, Formula.usesInTurn, List.append_nil]
      cases fault : firstFault? isUndefined (formula.uses 0) with
      | some name =>
          rw [unless_fault_some fault] at interpreted
          cases interpreted
      | none =>
          rw [unless_fault_none fault, cut_at_no_fault fault] at interpreted
          cases interpreted
          rfl
  | @fault failure rest _ _ later values interpreted =>
      obtain ⟨numbers, recorded⟩ := interpret_all_recording isUndefined completed []
      rw [recorded, List.length_nil, List.append_nil] at interpreted
      cases fault : firstFault? isUndefined (Formula.usesInTurn completed 0) with
      | some name =>
          rw [unless_fault_some fault] at interpreted
          cases interpreted
      | none =>
          rw [unless_fault_none fault, cut_at_no_fault fault] at interpreted
          cases interpreted
          rfl
  | @cut _ _ failure rest _ later interpreted =>
      obtain ⟨numbers, recorded⟩ := interpret_all_recording isUndefined completed []
      rw [recorded, List.length_nil, List.append_nil] at interpreted
      cases fault : firstFault? isUndefined (Formula.usesInTurn completed 0) with
      | some name =>
          rw [unless_fault_some fault] at interpreted
          cases interpreted
          exact ⟨rest, rfl⟩
      | none =>
          rw [unless_fault_none fault] at interpreted
          cases interpreted

end

/-- Reading with a record makes the uses of the formulas which reading to a tree completes. -/
theorem trace_tokens_eq (tokens : List Token) :
    ∃ completed,
      (∀ formula, (construction.read .expression tokens ()).outcome = .ok formula →
        completed = [formula]) ∧
      ∀ isUndefined allowTrailing, traceTokens isUndefined tokens allowTrailing =
        (unlessFault isUndefined (Formula.usesInTurn completed 0)
            ((Formula.ofTokens tokens allowTrailing).map (Formula.result · 0)),
          cutAtFault isUndefined (Formula.usesInTurn completed 0)) := by
  obtain ⟨completed, account, follows⟩ := accounted_read .expression tokens
  refine ⟨completed, account.single, ?_⟩
  intro isUndefined allowTrailing
  have recorded := follows_recording (follows _ _ (recording isUndefined) [])
  unfold traceTokens Formula.ofTokens Interpretation.readAll
  cases fault : firstFault? isUndefined (Formula.usesInTurn completed 0) with
  | some name =>
      rw [fault] at recorded
      obtain ⟨rest, run⟩ := recorded
      rw [unless_fault_some fault, run]
      simp only [List.reverse_reverse]
  | none =>
      rw [fault] at recorded
      rw [unless_fault_none fault, cut_at_no_fault fault, recorded]
      match construction.read .expression tokens () with
      | ⟨.error failure, rest, ()⟩ => simp [Except.map]
      | ⟨.ok formula, [], ()⟩ => simp [Except.map]
      | ⟨.ok formula, token :: rest, ()⟩ => cases allowTrailing <;> simp [Except.map]

/-- What a record shows of the reading of tokens whose tree is the given formula. -/
structure RecordsFormula (isUndefined : Variable → Bool) (formula : Formula)
    (outcome : Except Failure Nat) (made : List Use) : Prop where
  postorder : (formula.uses 0).map Use.node = formula.postorder
  cut : ∀ name, firstFault? isUndefined (formula.uses 0) = some name →
    EndsAt isUndefined (formula.uses 0) made name ∧ outcome = .error (.undefined name)
  whole : firstFault? isUndefined (formula.uses 0) = none →
    made = formula.uses 0 ∧ ∃ earlier last, made = earlier ++ [last] ∧
      outcome = .ok earlier.length ∧ ∀ number, number < earlier.length → IsOperandOnce number made

/-- What a record shows of the reading of tokens that have no tree. The given uses are those made
where every variable has a value. -/
structure RecordsFault (isUndefined : Variable → Bool) (failure : Failure) (uses : List Use)
    (outcome : Except Failure Nat) (made : List Use) : Prop where
  pointsBack : PointsBack 0 uses
  atMostOnce : ∀ number, timesUsed number made ≤ 1
  cut : ∀ name, firstFault? isUndefined uses = some name →
    EndsAt isUndefined uses made name ∧ outcome = .error (.undefined name)
  whole : firstFault? isUndefined uses = none → made = uses ∧ outcome = .error failure

theorem times_used_cut_at_fault (isUndefined : Variable → Bool) (number : Nat) (uses : List Use) :
    timesUsed number (cutAtFault isUndefined uses) ≤ timesUsed number uses := by
  obtain ⟨after, split⟩ := cut_at_fault_prefix isUndefined uses
  have whole := times_used_append number (cutAtFault isUndefined uses) after
  rw [split] at whole
  omega

/-- Reading interprets the tree of the tokens in postorder, and uses each result but that of the
whole once. A letter that fails cuts this off and is reported. Where there is no tree, the uses are
cut off in the same way, no result is used twice, and the fault of the tree is reported only when
nothing is cut off. -/
theorem reading_records_postorder (isUndefined : Variable → Bool) (tokens : List Token)
    (allowTrailing : Bool) :
    (∀ formula, Formula.ofTokens tokens allowTrailing = .ok formula →
      RecordsFormula isUndefined formula
        (traceTokens isUndefined tokens allowTrailing).1
        (traceTokens isUndefined tokens allowTrailing).2) ∧
    ∀ failure, Formula.ofTokens tokens allowTrailing = .error failure →
      RecordsFault isUndefined failure (traceTokens (fun _ => false) tokens allowTrailing).2
        (traceTokens isUndefined tokens allowTrailing).1
        (traceTokens isUndefined tokens allowTrailing).2 := by
  obtain ⟨completed, single, trace⟩ := trace_tokens_eq tokens
  rw [trace, trace, cut_at_fault_of_all_defined]
  constructor
  · intro formula tree
    obtain ⟨rest, read, _⟩ := (of_tokens_eq_ok_iff tokens allowTrailing formula).1 tree
    have uses : Formula.usesInTurn completed 0 = formula.uses 0 := by
      rw [single formula (by rw [read]), Formula.usesInTurn, Formula.usesInTurn, List.append_nil]
    obtain ⟨earlier, last, split, result⟩ := formula.uses_eq_append_last
    rw [uses, tree]
    refine ⟨formula.uses_postorder 0, ?cut, ?whole⟩
    case cut =>
      intro name fault
      exact ⟨ends_at_of_fault fault, unless_fault_some fault _⟩
    case whole =>
      intro none
      rw [cut_at_no_fault none, unless_fault_none none]
      refine ⟨rfl, earlier, last, split, congrArg Except.ok result, ?_⟩
      intro number before
      apply Formula.is_operand_once
      rw [result]
      exact before
  · intro failure fault
    rw [fault]
    refine ⟨Formula.uses_in_turn_point_back completed 0, ?atMostOnce, ?cut, ?whole⟩
    case atMostOnce =>
      intro number
      exact Nat.le_trans (times_used_cut_at_fault isUndefined number _)
        (Formula.times_used_in_turn completed 0 number).1
    case cut =>
      intro name fault
      exact ⟨ends_at_of_fault fault, unless_fault_some fault _⟩
    case whole =>
      intro none
      exact ⟨cut_at_no_fault none, unless_fault_none none _⟩

/-- The record of `~p -> q ^` ends at the letter that fails, before the fault of the tokens. -/
example : traceTokens (fun name => name == 'q')
    [⟨.negation, "~", 0⟩, ⟨.letter, "p", 1⟩, ⟨.joining .implies, "->", 3⟩, ⟨.letter, "q", 6⟩,
      ⟨.joining .and, "^", 8⟩] false =
    (.error (.undefined 'q'), [.letter 'p', .not 0, .letter 'q']) := by
  with_unfolding_all rfl

end Propositional
