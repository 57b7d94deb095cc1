import Mathlib.Data.List.Forall2
import Propositional.Proofs.Tabulation

/-!
Two runs side by side. Readings of tokens that correspond one by one take the same turns, because
the turns are decided by kinds and by whether there is a name. So their outcomes correspond, values
to values and failures to failures, as soon as this is so for each letter, each connective and each
token that is refused. Tables that are built from values which correspond are stopped after the same
number of questions.
-/

namespace Propositional

set_option autoImplicit false

/-- Of two outcomes both are values, the second one being the changed first, or both are failures
which stand in a relation. -/
inductive Corresponds {First Second : Type} (failures : Failure → Failure → Prop)
    (change : First → Second) : Except Failure First → Except Failure Second → Prop where
  | value (value : First) : Corresponds failures change (.ok value) (.ok (change value))
  | failure {failure other : Failure} (related : failures failure other) :
      Corresponds failures change (.error failure) (.error other)

/-- What makes two interpretations agree on tokens that correspond: the second one reads changed
names and deals with changed values, and what is reported of a token is related to what is reported
of the corresponding one. -/
structure Lockstep {State First Second : Type} (first : Interpretation State First)
    (second : Interpretation State Second) (tokens : Token → Token → Prop)
    (failures : Failure → Failure → Prop) (rename : Variable → Variable)
    (change : First → Second) : Prop where
  kind : ∀ token other, tokens token other → other.kind = token.kind
  name : ∀ token other, tokens token other → other.name? = token.name?.map rename
  letter : ∀ name state,
    Corresponds failures change (first.letter name state).1 (second.letter (rename name) state).1 ∧
      (second.letter (rename name) state).2 = (first.letter name state).2
  not : ∀ value state, second.not (change value) state =
    (change (first.not value state).1, (first.not value state).2)
  binary : ∀ connective left right state,
    second.binary connective (change left) (change right) state =
      (change (first.binary connective left right state).1,
        (first.binary connective left right state).2)
  incomplete : failures .incomplete .incomplete
  unexpected : ∀ token other, tokens token other →
    failures (.unexpected token.literal token.offset) (.unexpected other.literal other.offset)
  unclosed : ∀ token other, tokens token other →
    failures (.unclosed token.offset) (.unclosed other.offset)
  trailing : ∀ token other, tokens token other →
    failures (.trailing token.offset) (.trailing other.offset)

/-- The readings have come equally far, with corresponding outcomes and in the same state. -/
structure Reading.Alongside {State First Second : Type} (tokens : Token → Token → Prop)
    (failures : Failure → Failure → Prop) (change : First → Second)
    (reading : Reading State First) (other : Reading State Second) : Prop where
  outcome : Corresponds failures change reading.outcome other.outcome
  rest : List.Forall₂ tokens reading.rest other.rest
  state : other.state = reading.state

namespace Lockstep

variable {State First Second : Type} {first : Interpretation State First}
variable {second : Interpretation State Second} {tokens : Token → Token → Prop}
variable {failures : Failure → Failure → Prop} {rename : Variable → Variable}
variable {change : First → Second}

section

variable (lockstep : Lockstep first second tokens failures rename change)
include lockstep

theorem joins {token other : Token} (same : tokens token other) (strength : Strength) :
    other.joins? strength = token.joins? strength := by
  unfold Token.joins?
  rw [lockstep.kind token other same]

theorem refused {list others : List Token} (same : List.Forall₂ tokens list others)
    (state : State) :
    (Reading.refused list state).Alongside tokens failures change
      (Reading.refused others state) := by
  cases same with
  | nil => exact ⟨.failure lockstep.incomplete, .nil, rfl⟩
  | @cons token other _ _ here later =>
      exact ⟨.failure (lockstep.unexpected token other here), .cons here later, rfl⟩

theorem close {reading : Reading State First} {other : Reading State Second}
    {opening counterpart : Token} (opened : tokens opening counterpart)
    (alongside : reading.Alongside tokens failures change other) :
    (reading.close opening.offset).Alongside tokens failures change
      (other.close counterpart.offset) := by
  obtain ⟨outcome, rest, state⟩ := reading
  obtain ⟨otherOutcome, otherRest, otherState⟩ := other
  obtain ⟨outcomes, rests, rfl⟩ := alongside
  have unclosed := lockstep.unclosed opening counterpart opened
  cases outcomes with
  | failure related => exact ⟨.failure related, rests, rfl⟩
  | value value =>
      cases rests with
      | nil => exact ⟨.failure unclosed, .nil, rfl⟩
      | @cons token other _ _ here later =>
          have kind := lockstep.kind token other here
          by_cases closes : token.kind = .closing
          · simp only [Reading.close, kind, if_pos closes]
            exact ⟨.value value, later, rfl⟩
          · simp only [Reading.close, kind, if_neg closes]
            exact ⟨.failure unclosed, .cons here later, rfl⟩

theorem is_complete {strength : Strength} {reading : Reading State First}
    {other : Reading State Second} (alongside : reading.Alongside tokens failures change other)
    (complete : reading.IsComplete strength) : other.IsComplete strength := by
  obtain ⟨outcome, rest, state⟩ := reading
  obtain ⟨otherOutcome, otherRest, otherState⟩ := other
  obtain ⟨outcomes, rests, _⟩ := alongside
  cases outcomes with
  | failure related => exact Reading.is_complete_error _ _ _ _
  | value value =>
      have stops := complete value rfl
      intro _ _
      cases rests with
      | nil => exact stops_nil strength
      | cons here later =>
          rw [stops_cons, lockstep.joins here]
          exact (stops_cons _ _ _).1 stops

end

theorem apply {further : First → State → First × State}
    {furtherOther : Second → State → Second × State} {reading : Reading State First}
    {other : Reading State Second}
    (same : ∀ value state, furtherOther (change value) state =
      (change (further value state).1, (further value state).2))
    (alongside : reading.Alongside tokens failures change other) :
    (reading.apply further).Alongside tokens failures change (other.apply furtherOther) := by
  obtain ⟨outcome, rest, state⟩ := reading
  obtain ⟨otherOutcome, otherRest, otherState⟩ := other
  obtain ⟨outcomes, rests, rfl⟩ := alongside
  cases outcomes with
  | failure related => exact ⟨.failure related, rests, rfl⟩
  | value value =>
      simp only [Reading.apply, same]
      exact ⟨.value _, rests, rfl⟩

variable (lockstep : Lockstep first second tokens failures rename change)
include lockstep

theorem join (strength : Strength) {bound : Nat}
    (operands : ∀ (list others : List Token) (state : State), list.length < bound →
      List.Forall₂ tokens list others →
      (first.read strength.operand list state).Alongside tokens failures change
        (second.read strength.operand others state))
    {left : Reading State First} {other : Reading State Second}
    (within : left.rest.length ≤ bound)
    (alongside : left.Alongside tokens failures change other) :
    (first.join strength left).Alongside tokens failures change (second.join strength other) := by
  -- the turns are those of the first run, and the second one follows
  induction left using first.join_induction strength generalizing other with
  | complete left complete =>
      rw [first.join_complete strength left complete,
        second.join_complete strength other (lockstep.is_complete alongside complete)]
      exact alongside
  | step value token rest state connective joins induction =>
      obtain ⟨otherOutcome, otherRest, otherState⟩ := other
      obtain ⟨outcomes, rests, sameState⟩ := alongside
      dsimp only at outcomes rests sameState within
      subst otherState
      cases outcomes
      cases rests with
      | @cons _ counterpart _ others here later =>
          have otherJoins : counterpart.joins? strength = some connective := by
            rw [lockstep.joins here, joins]
          rw [first.join_connective joins, second.join_connective otherJoins]
          apply induction
          · have shorter := (first.rest_read_suffix strength.operand rest state).length_le
            rw [Reading.rest_apply]
            simp only [List.length_cons] at within
            omega
          · apply apply
            · exact fun right state => lockstep.binary connective value right state
            · exact operands rest others state within later

theorem read (phrase : Phrase) {list others : List Token}
    (same : List.Forall₂ tokens list others) (state : State) :
    (first.read phrase list state).Alongside tokens failures change
      (second.read phrase others state) := by
  induction phrase, list using reading_induction generalizing others state with
  | nothing phrase =>
      cases same
      rw [first.read_nothing, second.read_nothing]
      exact lockstep.refused .nil state
  | secondary token rest expression =>
      cases same with
      | @cons _ other _ others here later =>
          rw [first.read_secondary, second.read_secondary, lockstep.kind token other here,
            lockstep.name token other here]
          by_cases opens : token.kind = .opening
          · rw [if_pos opens, if_pos opens]
            exact lockstep.close here (expression later state)
          · rw [if_neg opens, if_neg opens]
            cases token.name? with
            | none => exact lockstep.refused (.cons here later) state
            | some name =>
                obtain ⟨outcomes, states⟩ := lockstep.letter name state
                exact ⟨outcomes, later, states⟩
  | primary token rest operand plain =>
      have whole := plain same state
      cases same with
      | @cons _ other _ others here later =>
          rw [first.read_primary, second.read_primary, lockstep.kind token other here]
          by_cases negates : token.kind = .negation
          · rw [if_pos negates, if_pos negates]
            exact apply lockstep.not (operand later state)
          · rw [if_neg negates, if_neg negates]
            exact whole
  | whole strength list operand later =>
      rw [first.read_whole, second.read_whole]
      have within := (first.rest_read_suffix strength.operand list state).length_le
      refine lockstep.join strength ?_ within (operand same state)
      intro rest others state shorter same
      exact later rest shorter same state

theorem read_all {list others : List Token} (same : List.Forall₂ tokens list others)
    (allowTrailing : Bool) (state : State) :
    Corresponds failures change (first.readAll list allowTrailing state).1
      (second.readAll others allowTrailing state).1 := by
  have alongside := lockstep.read .expression same state
  unfold Interpretation.readAll
  generalize first.read .expression list state = reading at alongside
  generalize second.read .expression others state = other at alongside
  obtain ⟨outcome, rest, later⟩ := reading
  obtain ⟨otherOutcome, otherRest, otherLater⟩ := other
  obtain ⟨outcomes, rests, rfl⟩ := alongside
  cases outcomes with
  | failure related => exact .failure related
  | value value =>
      cases rests with
      | nil => exact .value value
      | @cons token other _ _ here later =>
          cases allowTrailing with
          | true => exact .value value
          | false => exact .failure (lockstep.trailing token other here)

end Lockstep

theorem Corresponds.map {First Second Third Fourth : Type} {failures : Failure → Failure → Prop}
    {change : First → Second} {outcome : Except Failure First} {other : Except Failure Second}
    (corresponds : Corresponds failures change outcome other) {further : First → Third}
    {furtherOther : Second → Fourth} {furtherChange : Third → Fourth}
    (same : ∀ value, furtherOther (change value) = furtherChange (further value)) :
    Corresponds failures furtherChange (outcome.map further) (other.map furtherOther) := by
  cases corresponds with
  | failure related => exact .failure related
  | value value =>
      simp only [Except.map, same]
      exact .value _

def Row.move (change : Assignment → Assignment) (row : Row) : Row :=
  ⟨change row.assignment, row.value⟩

namespace Calculator

variable {failures : Failure → Failure → Prop} {change : Assignment → Assignment}
variable {first second : Assignment → Except Failure Bool}

theorem tabulate_over_corresponds (terminated : failures .terminated .terminated)
    (calculator : Calculator) (assignments : List Assignment) (rows : List Row)
    (values : ∀ assignment ∈ assignments,
      Corresponds failures id (first assignment) (second (change assignment))) :
    Corresponds failures (List.map (Row.move change))
        (tabulateOver first calculator assignments rows).1
        (tabulateOver second calculator (assignments.map change) (rows.map (.move change))).1 ∧
      (tabulateOver second calculator (assignments.map change) (rows.map (.move change))).2 =
        (tabulateOver first calculator assignments rows).2 := by
  induction assignments generalizing calculator rows with
  | nil =>
      simp only [List.map_nil, tabulateOver, ← List.map_reverse, and_true]
      exact .value _
  | cons assignment assignments induction =>
      have here := values assignment List.mem_cons_self
      have later : ∀ other ∈ assignments, Corresponds failures id (first other)
          (second (change other)) := fun other member =>
        values other (List.mem_cons_of_mem assignment member)
      simp only [List.map_cons, tabulateOver]
      obtain ⟨stop, asked⟩ := calculator.check
      cases stop with
      | true => exact ⟨.failure terminated, rfl⟩
      | false =>
          generalize first assignment = outcome at here
          generalize second (change assignment) = other at here
          cases here with
          | failure related => exact ⟨.failure related, rfl⟩
          | value value => exact induction asked (⟨assignment, value⟩ :: rows) later

theorem tabulate_corresponds (terminated : failures .terminated .terminated)
    (calculator : Calculator) {domain other : Variables} {changeTable : Table → Table}
    (assignments : other.assignments = domain.assignments.map change)
    (tables : ∀ rows : List Row,
      (⟨other, rows.map (.move change)⟩ : Table) = changeTable ⟨domain, rows⟩)
    (values : ∀ assignment ∈ domain.assignments,
      Corresponds failures id (first assignment) (second (change assignment))) :
    Corresponds failures changeTable (calculator.tabulate first domain).1
        (calculator.tabulate second other).1 ∧
      (calculator.tabulate second other).2 = (calculator.tabulate first domain).2 := by
  obtain ⟨rows, calculators⟩ :=
    tabulate_over_corresponds terminated calculator domain.assignments [] values
  rw [tabulate_eq, tabulate_eq, assignments]
  exact ⟨rows.map tables, calculators⟩

/-- Tables of tokens, under both strategies: what is read again for each row corresponds, and so do
the trees and their values. -/
theorem table_of_tokens_alongside (terminated : failures .terminated .terminated)
    (calculator : Calculator) {tokens others : List Token} {domain other : Variables}
    {changeFormula : Formula → Formula} {changeTable : Table → Table}
    (assignments : other.assignments = domain.assignments.map change)
    (tables : ∀ rows : List Row,
      (⟨other, rows.map (.move change)⟩ : Table) = changeTable ⟨domain, rows⟩)
    (reparsed : ∀ assignment, Corresponds failures id
      (calculator.evaluate assignment.valuation tokens)
      (calculator.evaluate (change assignment).valuation others))
    (read : Corresponds failures changeFormula (calculator.formula tokens)
      (calculator.formula others))
    (evaluated : ∀ (formula : Formula) (assignment : Assignment), Corresponds failures id
      (formula.evaluate assignment.valuation)
      ((changeFormula formula).evaluate (change assignment).valuation)) :
    Corresponds failures changeTable (calculator.tableOfTokens tokens domain).1
        (calculator.tableOfTokens others other).1 ∧
      (calculator.tableOfTokens others other).2 = (calculator.tableOfTokens tokens domain).2 := by
  unfold tableOfTokens
  cases calculator.settings.strategy.value with
  | reparse =>
      apply tabulate_corresponds terminated calculator assignments tables
      exact fun assignment _ => reparsed assignment
  | tree =>
      generalize calculator.formula tokens = outcome at read
      generalize calculator.formula others = otherOutcome at read
      cases read with
      | failure related => exact ⟨.failure related, rfl⟩
      | value formula =>
          apply tabulate_corresponds terminated calculator assignments tables
          exact fun assignment _ => evaluated formula assignment

end Calculator

end Propositional
