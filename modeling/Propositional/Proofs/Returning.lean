import Propositional.Proofs.Calls

/-!
Every call for a phrase comes to an end. The rules are followed along the reading of what is ahead
of the cursor, in which a call is always for fewer tokens, or for the same tokens and a phrase of
lower rank. So the cursor of a parser keeps to the range of the tokens however often it is used, and
no more expressions are read than there are tokens.
-/

namespace Propositional

set_option autoImplicit false

def beginning (tokens rest : List Token) : Nat :=
  tokens.length - rest.length

theorem token_at_beginning {tokens rest : List Token} (within : rest <:+ tokens) :
    tokens[beginning tokens rest]? = rest.head? := by
  obtain ⟨front, rfl⟩ := within
  rw [beginning, List.length_append, Nat.add_sub_cancel, List.getElem?_append_right (Nat.le_refl _),
    Nat.sub_self, List.head?_eq_getElem?]

theorem beginning_behind {tokens rest : List Token} {token : Token}
    (within : token :: rest <:+ tokens) :
    beginning tokens (token :: rest) + 1 = beginning tokens rest := by
  have shorter := within.length_le
  simp only [beginning, List.length_cons] at shorter ⊢
  omega

namespace Reading

variable {State Value : Type}

def passage (tokens : List Token) (reading : Reading State Value) : Passage State Value :=
  ⟨reading.outcome, beginning tokens reading.rest, reading.state⟩

theorem passage_apply (tokens : List Token) (change : Value → State → Value × State)
    (reading : Reading State Value) :
    (reading.apply change).passage tokens = (reading.passage tokens).apply change := by
  obtain ⟨outcome, rest, state⟩ := reading
  cases outcome <;> rfl

theorem passage_close {tokens : List Token} (offset : Nat) {reading : Reading State Value}
    (within : reading.rest <:+ tokens) :
    (reading.close offset).passage tokens = (reading.passage tokens).close tokens offset := by
  obtain ⟨outcome, rest, state⟩ := reading
  have here := token_at_beginning within
  cases outcome with
  | error failure => rfl
  | ok value =>
      cases rest with
      | nil =>
          simp only [Passage.close, passage, here]
          rfl
      | cons token rest =>
          simp only [Passage.close, passage, here, List.head?_cons, close]
          by_cases closes : token.kind = .closing
          · rw [if_pos closes, if_pos closes, beginning_behind within]
          · rw [if_neg closes, if_neg closes]

end Reading

namespace Interpretation

variable {State Value : Type} {interpretation : Interpretation State Value} {tokens : List Token}

theorem returns_nothing (phrase : Phrase) {position : Nat} (absent : tokens[position]? = none)
    (state : State) :
    interpretation.Returns tokens (.read phrase position state)
      ⟨.error .incomplete, position, state⟩ := by
  have secondary : interpretation.Returns tokens (.read .secondary position state)
      ⟨.error .incomplete, position, state⟩ := .nothing absent
  have primary : interpretation.Returns tokens (.read .primary position state)
      ⟨.error .incomplete, position, state⟩ := by
    refine .plain ?_ secondary
    intro token here
    cases absent.symm.trans here
  have term : interpretation.Returns tokens (.read .term position state)
      ⟨.error .incomplete, position, state⟩ := .term primary .failed
  cases phrase with
  | secondary => exact secondary
  | primary => exact primary
  | term => exact term
  | expression => exact .expression term .failed

theorem returns_whole {strength : Strength} {position : Nat} {state : State}
    {left passage : Passage State Value}
    (first : interpretation.Returns tokens (.read strength.operand position state) left)
    (further : interpretation.Returns tokens (.resume strength left) passage) :
    interpretation.Returns tokens (.read strength.whole position state) passage := by
  cases strength with
  | tight => exact .term first further
  | loose => exact .expression first further

/-- The loop comes to an end if its operands do, each of which is read from fewer tokens. -/
theorem returns_join (strength : Strength) {bound : Nat}
    (operands : ∀ (rest : List Token) (state : State), rest.length < bound → rest <:+ tokens →
      interpretation.Returns tokens (.read strength.operand (beginning tokens rest) state)
        ((interpretation.read strength.operand rest state).passage tokens))
    (left : Reading State Value) (within : left.rest <:+ tokens)
    (shorter : left.rest.length ≤ bound) :
    interpretation.Returns tokens (.resume strength (left.passage tokens))
      ((interpretation.join strength left).passage tokens) := by
  -- turn by turn: each takes a connective, so its operand is within the bound
  induction left using interpretation.join_induction strength with
  | complete left complete =>
      rw [interpretation.join_complete strength left complete]
      obtain ⟨outcome, rest, state⟩ := left
      cases outcome with
      | error failure => exact .failed
      | ok value =>
          refine .finished ?_
          intro token here
          obtain ⟨later, split⟩ :=
            List.head?_eq_some_iff.1 ((token_at_beginning within).symm.trans here)
          exact complete value rfl token later split
  | step value token rest state connective joins induction =>
      have behind : rest <:+ tokens := (List.suffix_cons token rest).trans within
      have left := interpretation.rest_read_suffix strength.operand rest state
      have operand := operands rest state shorter behind
      rw [← beginning_behind within] at operand
      rw [interpretation.join_connective joins]
      refine .joined (token_at_beginning within) joins operand ?_
      rw [← Reading.passage_apply]
      apply induction
      · rw [Reading.rest_apply]
        exact left.trans behind
      · rw [Reading.rest_apply]
        exact Nat.le_trans left.length_le (Nat.le_of_lt shorter)

theorem returns_read (phrase : Phrase) {rest : List Token} (within : rest <:+ tokens)
    (state : State) :
    interpretation.Returns tokens (.read phrase (beginning tokens rest) state)
      ((interpretation.read phrase rest state).passage tokens) := by
  -- on the number of tokens left and, for the same tokens, on the rank of the phrase
  induction phrase, rest using reading_induction generalizing state with
  | nothing phrase =>
      rw [interpretation.read_nothing]
      exact returns_nothing phrase (token_at_beginning within) state
  | secondary token rest expression =>
      have here := token_at_beginning within
      have behind : rest <:+ tokens := (List.suffix_cons token rest).trans within
      rw [interpretation.read_secondary]
      by_cases opens : token.kind = .opening
      · have inner := expression behind state
        have left := interpretation.rest_read_suffix .expression rest state
        rw [← beginning_behind within] at inner
        rw [if_pos opens, Reading.passage_close _ (left.trans behind)]
        exact .enclosed here opens inner
      · rw [if_neg opens]
        cases named : token.name? with
        | none => exact .refused here opens named
        | some name =>
            simp only [Reading.passage, ← beginning_behind within]
            exact .letter here named
  | primary token rest operand plain =>
      have here := token_at_beginning within
      rw [interpretation.read_primary]
      by_cases negates : token.kind = .negation
      · have inner := operand ((List.suffix_cons token rest).trans within) state
        rw [← beginning_behind within] at inner
        rw [if_pos negates, Reading.passage_apply]
        exact .negation here negates inner
      · rw [if_neg negates]
        refine .plain ?_ (plain within state)
        intro other again
        cases here.symm.trans again
        exact negates
  | whole strength list operand later =>
      rw [interpretation.read_whole]
      have left := interpretation.rest_read_suffix strength.operand list state
      refine returns_whole (operand within state) ?_
      apply returns_join strength (fun rest state shorter within => later rest shorter within state)
      · exact left.trans within
      · exact left.length_le

theorem returns_read_at (interpretation : Interpretation State Value) (phrase : Phrase)
    (tokens : List Token) (position : Nat) (state : State) :
    interpretation.Returns tokens (.read phrase position state)
      (interpretation.readAt phrase tokens position state) := by
  by_cases within : position ≤ tokens.length
  · have ahead : (tokens.drop position).length = tokens.length - position := List.length_drop
    have place : beginning tokens (tokens.drop position) = position := by
      rw [beginning, ahead, Nat.sub_sub_self within]
    have returns := interpretation.returns_read phrase (List.drop_suffix position tokens) state
    have left := (interpretation.rest_read_suffix phrase (tokens.drop position) state).length_le
    have read : (interpretation.read phrase (tokens.drop position) state).passage tokens =
        interpretation.readAt phrase tokens position state := by
      simp only [Reading.passage, readAt, beginning, Passage.mk.injEq, true_and, and_true]
      omega
    rw [place, read] at returns
    exact returns
  · have beyond : tokens.length ≤ position := Nat.le_of_not_le within
    rw [interpretation.read_at_end (List.drop_eq_nil_of_le beyond) phrase state]
    exact returns_nothing phrase (List.getElem?_eq_none beyond) state

theorem returns_iff_read_at (phrase : Phrase) (position : Nat) (state : State)
    (passage : Passage State Value) :
    interpretation.Returns tokens (.read phrase position state) passage ↔
      passage = interpretation.readAt phrase tokens position state := by
  have returns := interpretation.returns_read_at phrase tokens position state
  constructor
  · intro other
    exact other.unique returns
  · rintro rfl
    exact returns

theorem read_at_in_range (interpretation : Interpretation State Value) (phrase : Phrase)
    {position : Nat} (within : position ≤ tokens.length) (state : State) :
    let passage := interpretation.readAt phrase tokens position state
    position ≤ passage.position ∧ passage.position ≤ tokens.length ∧
      ∀ value, passage.outcome = .ok value → position < passage.position := by
  have returns := interpretation.returns_read_at phrase tokens position state
  refine ⟨returns.forward, returns.inside within, ?_⟩
  intro value succeeded
  exact returns.onward succeeded

theorem read_in_turn_ascends (interpretation : Interpretation State Value) (count : Nat)
    {position : Nat} (within : position ≤ tokens.length) (state : State) :
    (position :: (interpretation.readInTurn tokens count position state).map
      Passage.position).Pairwise (· ≤ ·) := by
  induction count generalizing position state with
  | zero => exact List.pairwise_singleton _ _
  | succ count induction =>
      obtain ⟨forward, inside, _⟩ := interpretation.read_at_in_range .expression within state
      have later := induction inside
        (interpretation.readAt .expression tokens position state).state
      simp only [readInTurn, List.map_cons]
      refine List.Pairwise.cons ?_ later
      intro other member
      cases member with
      | head => exact forward
      | tail _ behind => exact Nat.le_trans forward (List.rel_of_pairwise_cons later behind)

theorem read_in_turn_inside (interpretation : Interpretation State Value) (count : Nat)
    {position : Nat} (within : position ≤ tokens.length) (state : State) :
    ∀ passage ∈ interpretation.readInTurn tokens count position state,
      passage.position ≤ tokens.length := by
  induction count generalizing position state with
  | zero =>
      intro passage member
      cases member
  | succ count induction =>
      obtain ⟨_, inside, _⟩ := interpretation.read_at_in_range .expression within state
      intro passage member
      cases member with
      | head => exact inside
      | tail _ behind => exact induction inside _ passage behind

/-- Each call that succeeds uses up a token of its own. -/
theorem succeeded_in_turn (interpretation : Interpretation State Value) (count : Nat)
    {position : Nat} (within : position ≤ tokens.length) (state : State) :
    position + (interpretation.readInTurn tokens count position state).countP
      Passage.succeeds ≤ tokens.length := by
  induction count generalizing position state with
  | zero => exact within
  | succ count induction =>
      obtain ⟨forward, inside, onward⟩ :=
        interpretation.read_at_in_range .expression within state
      have later := induction inside
        (interpretation.readAt .expression tokens position state).state
      rw [readInTurn]
      cases outcome : (interpretation.readAt .expression tokens position state).outcome with
      | error failure =>
          rw [List.countP_cons_of_neg (by rw [Passage.succeeds, outcome]; exact Bool.noConfusion)]
          omega
      | ok value =>
          have taken := onward value outcome
          rw [List.countP_cons_of_pos (by rw [Passage.succeeds, outcome]; rfl)]
          omega

/-- From every position among the tokens or at their end, each phrase is read to an end: the rules
lead to one passage and no other. The cursor does not go back, does not pass the end of the tokens,
and moves on if the reading succeeds. So when expressions are read in turn, however often and also
behind failures, the cursor only goes on, it stays in range, and no more of the readings succeed
than there are tokens ahead. -/
theorem cursor_goes_on_in_range (interpretation : Interpretation State Value)
    (tokens : List Token) (position : Nat) (within : position ≤ tokens.length) (state : State) :
    (∀ phrase,
      let passage := interpretation.readAt phrase tokens position state
      (∀ other, interpretation.Returns tokens (.read phrase position state) other ↔
        other = passage) ∧
      position ≤ passage.position ∧ passage.position ≤ tokens.length ∧
      ∀ value, passage.outcome = .ok value → position < passage.position) ∧
    ∀ count,
      let passages := interpretation.readInTurn tokens count position state
      (position :: passages.map Passage.position).Pairwise (· ≤ ·) ∧
      (∀ passage ∈ passages, passage.position ≤ tokens.length) ∧
      position + passages.countP Passage.succeeds ≤ tokens.length := by
  constructor
  · intro phrase
    exact ⟨returns_iff_read_at phrase position state,
      interpretation.read_at_in_range phrase within state⟩
  · intro count
    exact ⟨interpretation.read_in_turn_ascends count within state,
      interpretation.read_in_turn_inside count within state,
      interpretation.succeeded_in_turn count within state⟩

/-- In `p (q) ~` from the second token on: an expression is read, then a negation is taken and there
is nothing to negate, and then the cursor is at the end. -/
theorem cursor_goes_on_in_range_to_end :
    construction.Returns [⟨.letter, "p", 0⟩, ⟨.opening, "(", 2⟩, ⟨.letter, "q", 3⟩,
        ⟨.closing, ")", 4⟩, ⟨.negation, "~", 6⟩] (.read .expression 1 ())
      ⟨.ok (.letter 'q'), 4, ()⟩ ∧
    ∃ passages, construction.readInTurn [⟨.letter, "p", 0⟩, ⟨.opening, "(", 2⟩,
        ⟨.letter, "q", 3⟩, ⟨.closing, ")", 4⟩, ⟨.negation, "~", 6⟩] 3 1 () = passages ∧
      passages.map Passage.position = [4, 5, 5] ∧
      (1 :: passages.map Passage.position).Pairwise (· ≤ ·) ∧
      1 + passages.countP Passage.succeeds ≤ 5 := by
  obtain ⟨phrases, inTurn⟩ := construction.cursor_goes_on_in_range [⟨.letter, "p", 0⟩,
    ⟨.opening, "(", 2⟩, ⟨.letter, "q", 3⟩, ⟨.closing, ")", 4⟩, ⟨.negation, "~", 6⟩] 1 (by decide) ()
  obtain ⟨returns, _⟩ := phrases .expression
  obtain ⟨ascends, _, few⟩ := inTurn 3
  refine ⟨(returns _).2 ?_, _, rfl, ?_, ascends, few⟩
  · with_unfolding_all rfl
  · with_unfolding_all rfl

end Interpretation

end Propositional
