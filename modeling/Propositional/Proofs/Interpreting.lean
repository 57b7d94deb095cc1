import Propositional.Proofs.Derivability

/-!
One reading under two interpretations. Reading to a tree never fails at a letter, so it shows how
far the tokens can be read at all: it completes some formulas, one after the other, which in the
end are joined to a single one or are left apart by a fault. Reading under any other interpretation
is interpreting these formulas in turn, and is cut off by the first letter that fails.
-/

namespace Propositional

set_option autoImplicit false

open Interpretation (construction)

namespace Interpretation

variable {State Value : Type} (interpretation : Interpretation State Value)

def interpret : Formula → State → Except Failure Value × State
  | .letter name, state => interpretation.letter name state
  | .not operand, state =>
      match interpret operand state with
      | (.error failure, later) => (.error failure, later)
      | (.ok value, later) =>
          (.ok (interpretation.not value later).1, (interpretation.not value later).2)
  | .binary connective left right, state =>
      match interpret left state with
      | (.error failure, later) => (.error failure, later)
      | (.ok leftValue, middle) =>
          match interpret right middle with
          | (.error failure, later) => (.error failure, later)
          | (.ok rightValue, later) =>
              (.ok (interpretation.binary connective leftValue rightValue later).1,
                (interpretation.binary connective leftValue rightValue later).2)

def interpretAll : List Formula → State → Except Failure (List Value) × State
  | [], state => (.ok [], state)
  | formula :: formulas, state =>
      match interpretation.interpret formula state with
      | (.error failure, later) => (.error failure, later)
      | (.ok value, middle) =>
          match interpretAll formulas middle with
          | (.error failure, later) => (.error failure, later)
          | (.ok values, later) => (.ok (value :: values), later)

/-- `Follows tree completed state run` relates a reading to a tree, which has completed some
formulas, to a reading that began in the given state. The letters of these formulas all succeed up
to a single value or up to the fault of the tree, or one of them cuts the run off. -/
inductive Follows :
    Reading Unit Formula → List Formula → State → Reading State Value → Prop where
  | value {formula : Formula} {rest : List Token} {state later : State} {value : Value}
      (interpreted : interpretation.interpret formula state = (.ok value, later)) :
      Follows ⟨.ok formula, rest, ()⟩ [formula] state ⟨.ok value, rest, later⟩
  | fault {failure : Failure} {rest : List Token} {completed : List Formula}
      {state later : State} {values : List Value}
      (interpreted : interpretation.interpretAll completed state = (.ok values, later)) :
      Follows ⟨.error failure, rest, ()⟩ completed state ⟨.error failure, rest, later⟩
  | cut {tree : Reading Unit Formula} {completed : List Formula} {failure : Failure}
      {rest : List Token} {state later : State}
      (interpreted : interpretation.interpretAll completed state = (.error failure, later)) :
      Follows tree completed state ⟨.error failure, rest, later⟩

variable {interpretation}

theorem interpret_all_singleton {formula : Formula} {state later : State} {value : Value}
    (interpreted : interpretation.interpret formula state = (.ok value, later)) :
    interpretation.interpretAll [formula] state = (.ok [value], later) := by
  rw [interpretAll, interpreted]
  rfl

theorem interpret_all_cut {formula : Formula} {state later : State} {failure : Failure}
    (interpreted : interpretation.interpret formula state = (.error failure, later))
    (formulas : List Formula) :
    interpretation.interpretAll (formula :: formulas) state = (.error failure, later) := by
  rw [interpretAll, interpreted]

theorem interpret_of_interpret_all {formula : Formula} {state later : State} {failure : Failure}
    (interpreted : interpretation.interpretAll [formula] state = (.error failure, later)) :
    interpretation.interpret formula state = (.error failure, later) := by
  rw [interpretAll] at interpreted
  match found : interpretation.interpret formula state with
  | (.error other, ending) =>
      rw [found] at interpreted
      cases interpreted
      rfl
  | (.ok value, ending) =>
      rw [found] at interpreted
      cases interpreted

theorem follows_close {tree : Reading Unit Formula} {completed : List Formula} {state : State}
    {run : Reading State Value} (offset : Nat)
    (follows : interpretation.Follows tree completed state run) :
    interpretation.Follows (tree.close offset) completed state (run.close offset) := by
  cases follows with
  | @value formula rest _ later value interpreted =>
      match rest with
      | [] => exact .fault (interpret_all_singleton interpreted)
      | token :: rest =>
          by_cases closes : token.kind = .closing
          · simp only [Reading.close, if_pos closes]
            exact .value interpreted
          · simp only [Reading.close, if_neg closes]
            exact .fault (interpret_all_singleton interpreted)
  | fault interpreted => exact .fault interpreted
  | cut interpreted => exact .cut interpreted

theorem follows_letter (name : Variable) (rest : List Token) (state : State) :
    interpretation.Follows ⟨.ok (.letter name), rest, ()⟩ [.letter name] state
      ⟨(interpretation.letter name state).1, rest, (interpretation.letter name state).2⟩ := by
  match found : interpretation.letter name state with
  | (.ok value, later) =>
      apply Follows.value
      rw [interpret, found]
  | (.error failure, later) =>
      apply Follows.cut
      apply interpret_all_cut
      rw [interpret, found]

theorem follows_fault_apply {failure : Failure} {rest : List Token} {completed : List Formula}
    {state : State} {run : Reading State Value} (change : Value → State → Value × State)
    (follows : interpretation.Follows ⟨.error failure, rest, ()⟩ completed state run) :
    interpretation.Follows ⟨.error failure, rest, ()⟩ completed state (run.apply change) := by
  cases follows with
  | fault interpreted => exact .fault interpreted
  | cut interpreted => exact .cut interpreted

theorem follows_not {formula : Formula} {rest : List Token} {state : State}
    {run : Reading State Value}
    (follows : interpretation.Follows ⟨.ok formula, rest, ()⟩ [formula] state run) :
    interpretation.Follows ⟨.ok (.not formula), rest, ()⟩ [.not formula] state
      (run.apply interpretation.not) := by
  cases follows with
  | value interpreted =>
      apply Follows.value
      rw [interpret, interpreted]
  | cut interpreted =>
      have failed := interpret_of_interpret_all interpreted
      apply Follows.cut
      apply interpret_all_cut
      rw [interpret, failed]

theorem follows_binary {connective : Connective} {left right : Formula} {rest : List Token}
    {state middle : State} {leftValue : Value} {run : Reading State Value}
    (interpreted : interpretation.interpret left state = (.ok leftValue, middle))
    (follows : interpretation.Follows ⟨.ok right, rest, ()⟩ [right] middle run) :
    interpretation.Follows ⟨.ok (.binary connective left right), rest, ()⟩
      [.binary connective left right] state
      (run.apply (interpretation.binary connective leftValue)) := by
  cases follows with
  | value rightInterpreted =>
      apply Follows.value
      rw [interpret, interpreted]
      simp only [rightInterpreted]
  | cut rightInterpreted =>
      have failed := interpret_of_interpret_all rightInterpreted
      apply Follows.cut
      apply interpret_all_cut
      rw [interpret, interpreted]
      simp only [failed]

theorem follows_fault_behind {left : Formula} {failure : Failure} {rest : List Token}
    {completed : List Formula} {state middle : State} {leftValue : Value}
    {run : Reading State Value} (change : Value → State → Value × State)
    (interpreted : interpretation.interpret left state = (.ok leftValue, middle))
    (follows : interpretation.Follows ⟨.error failure, rest, ()⟩ completed middle run) :
    interpretation.Follows ⟨.error failure, rest, ()⟩ (left :: completed) state
      (run.apply change) := by
  cases follows with
  | fault later =>
      apply Follows.fault
      rw [interpretAll, interpreted]
      simp only [later]
      rfl
  | cut later =>
      apply Follows.cut
      rw [interpretAll, interpreted]
      simp only [later]

theorem is_complete_of_follows {strength : Strength} {tree : Reading Unit Formula}
    {completed : List Formula} {state : State} {run : Reading State Value}
    (complete : tree.IsComplete strength)
    (follows : interpretation.Follows tree completed state run) : run.IsComplete strength := by
  cases follows with
  | @value formula rest _ _ _ _ =>
      intro _ _
      exact complete formula rfl
  | fault _ => exact Reading.is_complete_error _ _ _ _
  | cut _ => exact Reading.is_complete_error _ _ _ _

end Interpretation

/-- The formulas which a reading to a tree has completed. Their letters are those it has taken. -/
structure Completed (tokens : List Token) (tree : Reading Unit Formula)
    (completed : List Formula) : Prop where
  single : ∀ formula, tree.outcome = .ok formula → completed = [formula]
  letters : ∃ taken, tokens = taken ++ tree.rest ∧
    taken.filterMap Token.name? = completed.flatMap Formula.letters

theorem completed_refused (tokens : List Token) : Completed tokens (.refused tokens ()) [] where
  single := by
    intro formula succeeded
    cases tokens <;> cases succeeded
  letters := ⟨[], by rw [Reading.rest_refused]; rfl, rfl⟩

theorem completed_close {token : Token} {rest : List Token} {tree : Reading Unit Formula}
    {completed : List Formula} (opens : token.kind = .opening)
    (inner : Completed rest tree completed) :
    Completed (token :: rest) (tree.close token.offset) completed := by
  obtain ⟨taken, split, letters⟩ := inner.letters
  have openingName : token.name? = none := Token.name_of_kind (by rw [opens]; decide)
  constructor
  · intro formula succeeded
    obtain ⟨_, _, innerSucceeded, _⟩ := Reading.close_succeeded succeeded
    exact inner.single formula innerSucceeded
  · cases succeeded : (tree.close token.offset).outcome with
    | ok formula =>
        obtain ⟨closing, closes, _, innerRest⟩ := Reading.close_succeeded succeeded
        have closingName : closing.name? = none := Token.name_of_kind (by rw [closes]; decide)
        refine ⟨token :: (taken ++ [closing]), ?_, ?_⟩
        · rw [split, innerRest]
          simp
        · simp [openingName, closingName, letters]
    | error failure =>
        refine ⟨token :: taken, ?_, ?_⟩
        · rw [Reading.rest_close_failed succeeded, split]
          rfl
        · simp [openingName, letters]

theorem completed_not {token : Token} {rest : List Token} {tree : Reading Unit Formula}
    {formula : Formula} (negates : token.kind = .negation)
    (inner : Completed rest tree [formula]) (succeeded : tree.outcome = .ok formula) :
    Completed (token :: rest) (tree.apply construction.not) [.not formula] := by
  obtain ⟨taken, split, letters⟩ := inner.letters
  have name : token.name? = none := Token.name_of_kind (by rw [negates]; decide)
  constructor
  · intro other otherSucceeded
    obtain ⟨found, foundSucceeded, same⟩ := Reading.apply_succeeded otherSucceeded
    rw [succeeded] at foundSucceeded
    cases foundSucceeded
    rw [same]
    rfl
  · refine ⟨token :: taken, ?_, ?_⟩
    · rw [Reading.rest_apply, split]
      rfl
    · simpa [name, Formula.letters] using letters

theorem completed_fault_behind {token : Token} {rest later : List Token} {failure : Failure}
    {completed : List Formula} (name : token.name? = none)
    (inner : Completed rest ⟨.error failure, later, ()⟩ completed) :
    Completed (token :: rest) ⟨.error failure, later, ()⟩ completed := by
  obtain ⟨taken, split, letters⟩ := inner.letters
  refine ⟨inner.single, token :: taken, ?_, ?_⟩
  · rw [split]
    rfl
  · simpa [name] using letters

/-- Reading a phrase from the tokens completes some formulas, and reading it under any
interpretation is interpreting them. -/
def Accounted (phrase : Phrase) (tokens : List Token) : Prop :=
  ∃ completed, Completed tokens (construction.read phrase tokens ()) completed ∧
    ∀ (State Value : Type) (interpretation : Interpretation State Value) (state : State),
      interpretation.Follows (construction.read phrase tokens ()) completed state
        (interpretation.read phrase tokens state)

/-- An operand behind a formula and a connective: what is completed by then, how a run goes on
over the operand, and that a run which was cut off before stays so. -/
theorem joined_follows {strength : Strength} {token : Token} {connective : Connective}
    {tokens rest : List Token} {left : Formula}
    (joins : token.joins? strength = some connective)
    (before : Completed tokens ⟨.ok left, token :: rest, ()⟩ [left]) {tree : Reading Unit Formula}
    {completed : List Formula} (after : Completed rest tree completed) :
    ∃ joined, Completed tokens (tree.apply (construction.binary connective left)) joined ∧
      ∀ (State Value : Type) (interpretation : Interpretation State Value) (state : State),
        (∀ value middle run, interpretation.interpret left state = (.ok value, middle) →
          interpretation.Follows tree completed middle run →
          interpretation.Follows (tree.apply (construction.binary connective left)) joined state
            (run.apply (interpretation.binary connective value))) ∧
        ∀ failure later, interpretation.interpret left state = (.error failure, later) →
          interpretation.interpretAll joined state = (.error failure, later) := by
  obtain ⟨taken, split, letters⟩ := before.letters
  obtain ⟨operandTaken, operandSplit, operandLetters⟩ := after.letters
  have name := Token.name_of_joins joins
  have tokensSplit : tokens = (taken ++ token :: operandTaken) ++ tree.rest := by
    rw [split, operandSplit]
    simp
  match tree with
  | ⟨.ok right, later, ()⟩ =>
      have single := after.single right rfl
      subst single
      refine ⟨[.binary connective left right], ⟨?_, taken ++ token :: operandTaken, ?_, ?_⟩, ?_⟩
      · intro formula succeeded
        cases succeeded
        rfl
      · exact tokensSplit
      · simp only [List.flatMap_cons, List.flatMap_nil, List.append_nil] at letters operandLetters
        simp [name, letters, operandLetters, Formula.letters]
      · intro State Value interpretation state
        constructor
        · intro value middle run interpreted follows
          exact Interpretation.follows_binary interpreted follows
        · intro failure ending interpreted
          apply Interpretation.interpret_all_cut
          rw [Interpretation.interpret, interpreted]
  | ⟨.error failure, later, ()⟩ =>
      refine ⟨left :: completed, ⟨?_, taken ++ token :: operandTaken, ?_, ?_⟩, ?_⟩
      · intro formula succeeded
        cases succeeded
      · exact tokensSplit
      · simp only [List.flatMap_cons, List.flatMap_nil, List.append_nil] at letters
        simp [name, letters, operandLetters]
      · intro State Value interpretation state
        constructor
        · intro value middle run interpreted follows
          exact Interpretation.follows_fault_behind _ interpreted follows
        · intro failure ending interpreted
          exact Interpretation.interpret_all_cut interpreted completed

theorem join_follows (strength : Strength) {tokens : List Token} (left : Reading Unit Formula)
    {completed : List Formula} (account : Completed tokens left completed)
    (operands : ∀ rest : List Token, rest.length < tokens.length →
      Accounted strength.operand rest) :
    ∃ final, Completed tokens (construction.join strength left) final ∧
      ∀ (State Value : Type) (interpretation : Interpretation State Value) (state : State)
        (run : Reading State Value), interpretation.Follows left completed state run →
        interpretation.Follows (construction.join strength left) final state
          (interpretation.join strength run) := by
  induction left using construction.join_induction strength generalizing completed with
  | complete left complete =>
      rw [construction.join_complete strength left complete]
      refine ⟨completed, account, ?_⟩
      intro State Value interpretation state run follows
      have done := Interpretation.is_complete_of_follows complete follows
      rw [interpretation.join_complete strength run done]
      exact follows
  | step left token rest state connective joins induction =>
      have single := account.single left rfl
      subst single
      have shorter : rest.length < tokens.length := by
        obtain ⟨taken, split, _⟩ := account.letters
        have lengths := congrArg List.length split
        simp only [List.length_append, List.length_cons] at lengths
        omega
      obtain ⟨operandCompleted, operandAccount, operandFollows⟩ := operands rest shorter
      obtain ⟨joined, joinedAccount, goesOn⟩ := joined_follows joins account operandAccount
      obtain ⟨final, finalAccount, finalFollows⟩ := induction joinedAccount
      rw [construction.join_connective joins]
      refine ⟨final, finalAccount, ?_⟩
      intro State Value interpretation start run follows
      cases follows with
      | value interpreted =>
          rw [interpretation.join_connective joins]
          apply finalFollows
          apply (goesOn State Value interpretation start).1 _ _ _ interpreted
          exact operandFollows State Value interpretation _
      | cut interpreted =>
          -- the tree goes on, but a run that has failed does not
          apply finalFollows
          apply Interpretation.Follows.cut
          apply (goesOn State Value interpretation start).2
          exact Interpretation.interpret_of_interpret_all interpreted

theorem accounted_read (phrase : Phrase) (tokens : List Token) : Accounted phrase tokens := by
  induction phrase, tokens using reading_induction with
  | nothing phrase =>
      refine ⟨[], ?_, ?_⟩
      · rw [construction.read_nothing]
        exact completed_refused []
      · intro State Value interpretation state
        rw [construction.read_nothing, interpretation.read_nothing]
        exact .fault rfl
  | secondary token rest expression =>
      unfold Accounted
      by_cases opens : token.kind = .opening
      · obtain ⟨completed, account, follows⟩ := expression
        rw [construction.read_secondary, if_pos opens]
        refine ⟨completed, completed_close opens account, ?_⟩
        intro State Value interpretation state
        rw [interpretation.read_secondary, if_pos opens]
        exact Interpretation.follows_close token.offset (follows State Value interpretation state)
      · rw [construction.read_secondary, if_neg opens]
        cases named : token.name? with
        | none =>
            refine ⟨[], completed_refused (token :: rest), ?_⟩
            intro State Value interpretation state
            rw [interpretation.read_secondary, if_neg opens, named]
            exact .fault rfl
        | some name =>
            refine ⟨[.letter name], ⟨?_, [token], rfl, ?_⟩, ?_⟩
            · intro formula succeeded
              cases succeeded
              rfl
            · simp [named, Formula.letters]
            · intro State Value interpretation state
              rw [interpretation.read_secondary, if_neg opens, named]
              exact Interpretation.follows_letter name rest state
  | primary token rest operand plain =>
      unfold Accounted
      rw [construction.read_primary]
      by_cases negates : token.kind = .negation
      · obtain ⟨completed, account, follows⟩ := operand
        have name : token.name? = none := Token.name_of_kind (by rw [negates]; decide)
        rw [if_pos negates]
        match tree : construction.read .secondary rest () with
        | ⟨.ok formula, later, ()⟩ =>
            rw [tree] at account follows
            have single := account.single formula rfl
            subst single
            refine ⟨[.not formula], completed_not negates account rfl, ?_⟩
            intro State Value interpretation state
            rw [interpretation.read_primary, if_pos negates]
            exact Interpretation.follows_not (follows State Value interpretation state)
        | ⟨.error failure, later, ()⟩ =>
            rw [tree] at account follows
            refine ⟨completed, completed_fault_behind name account, ?_⟩
            intro State Value interpretation state
            rw [interpretation.read_primary, if_pos negates]
            exact Interpretation.follows_fault_apply _ (follows State Value interpretation state)
      · obtain ⟨completed, account, follows⟩ := plain
        rw [if_neg negates]
        refine ⟨completed, account, ?_⟩
        intro State Value interpretation state
        rw [interpretation.read_primary, if_neg negates]
        exact follows State Value interpretation state
  | whole strength tokens operand later =>
      obtain ⟨completed, account, follows⟩ := operand
      obtain ⟨final, finalAccount, finalFollows⟩ := join_follows strength _ account later
      unfold Accounted
      rw [construction.read_whole]
      refine ⟨final, finalAccount, ?_⟩
      intro State Value interpretation state
      rw [interpretation.read_whole]
      exact finalFollows State Value interpretation state _
        (follows State Value interpretation state)

end Propositional
