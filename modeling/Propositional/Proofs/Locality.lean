import Propositional.Proofs.Lookahead
import Propositional.Proofs.Returning

/-!
What a parser does next does not depend on what is behind its cursor, on where the cursor is, or on
what is further ahead than the token at which it stops. The stretch of tokens that it passes, with
the token that follows or the lack of one, determines the outcome and the end of the stretch.
-/

namespace Propositional

set_option autoImplicit false

theorem drop_eq_extract_append (tokens : List Token) {position stop : Nat}
    (forward : position ≤ stop) :
    tokens.drop position = tokens.extract position stop ++ tokens.drop stop := by
  have behind : (tokens.drop position).drop (stop - position) = tokens.drop stop := by
    rw [List.drop_drop, Nat.add_sub_cancel' forward]
  rw [List.extract_eq_take_drop, ← behind, List.take_append_drop]

namespace Interpretation

variable {State Value : Type} {interpretation : Interpretation State Value}

theorem read_of_read_at {phrase : Phrase} {tokens : List Token} {position stop : Nat}
    {state later : State} {outcome : Except Failure Value}
    (read : interpretation.readAt phrase tokens position state = ⟨outcome, stop, later⟩) :
    position + (tokens.extract position stop).length = stop ∧
      ∀ other, other.head? = tokens[stop]? →
        interpretation.read phrase (tokens.extract position stop ++ other) state =
          ⟨outcome, other, later⟩ := by
  have result : (interpretation.read phrase (tokens.drop position) state).outcome = outcome ∧
      (interpretation.read phrase (tokens.drop position) state).state = later :=
    ⟨congrArg Passage.outcome read, congrArg Passage.state read⟩
  have rest := interpretation.drop_position_read_at phrase tokens position state
  rw [read] at rest
  obtain ⟨taken, split, follows⟩ :=
    interpretation.read_looks_ahead phrase (tokens.drop position) state
  rw [← rest] at split follows
  have passed : position + taken.length = stop := by
    have stopped := congrArg Passage.position read
    have lengths := congrArg List.length split
    simp only [readAt, ← rest, List.length_append] at stopped lengths
    omega
  have stretch : tokens.extract position stop = taken := by
    rw [List.extract_eq_take_drop, ← passed, Nat.add_sub_cancel_left, split, List.take_left]
  rw [stretch]
  refine ⟨passed, ?_⟩
  intro other same
  rw [← List.head?_drop] at same
  rw [follows other same, Reading.leaving, result.1, result.2]

/-- Wherever the tokens that the cursor passes stand in a list of tokens, with the token at which it
stops behind them, or at the end of the list if it stops at the end: a reading from there has the
same outcome and passes the same tokens. -/
theorem passage_rests_on_stretch (interpretation : Interpretation State Value) (phrase : Phrase)
    {tokens others : List Token} {position start stop : Nat} {state later : State}
    {outcome : Except Failure Value}
    (read : interpretation.readAt phrase tokens position state = ⟨outcome, stop, later⟩)
    (stretch : others.extract start (start + (stop - position)) = tokens.extract position stop)
    (next : others[start + (stop - position)]? = tokens[stop]?) :
    interpretation.readAt phrase others start state =
        ⟨outcome, start + (stop - position), later⟩ ∧
      interpretation.Returns others (.read phrase start state)
        ⟨outcome, start + (stop - position), later⟩ := by
  obtain ⟨passed, follows⟩ := read_of_read_at read
  have length : (tokens.extract position stop).length = stop - position := by omega
  have split : others.drop start =
      tokens.extract position stop ++ others.drop (start + (stop - position)) := by
    rw [← stretch]
    exact drop_eq_extract_append others (Nat.le_add_right _ _)
  have same := follows (others.drop (start + (stop - position))) (by rw [List.head?_drop, next])
  have there := interpretation.read_at_of_read split same
  rw [length] at there
  exact ⟨there, (returns_iff_read_at phrase start state _).2 there.symm⟩

/-- In `(p q` the letter where the parenthesis should be closed is not passed. It is the same behind
other tokens, and whatever follows that letter. -/
theorem passage_rests_on_stretch_unclosed :
    construction.readAt .expression [⟨.letter, "r", 0⟩, ⟨.joining .implies, "->", 1⟩,
        ⟨.opening, "(", 5⟩, ⟨.letter, "p", 6⟩, ⟨.letter, "q", 8⟩, ⟨.closing, ")", 9⟩] 2 () =
      ⟨.error (.unclosed 5), 4, ()⟩ ∧
    construction.Returns [⟨.letter, "r", 0⟩, ⟨.joining .implies, "->", 1⟩,
        ⟨.opening, "(", 5⟩, ⟨.letter, "p", 6⟩, ⟨.letter, "q", 8⟩, ⟨.closing, ")", 9⟩]
      (.read .expression 2 ()) ⟨.error (.unclosed 5), 4, ()⟩ := by
  have read : construction.readAt .expression
      [⟨.opening, "(", 5⟩, ⟨.letter, "p", 6⟩, ⟨.letter, "q", 8⟩] 0 () =
      ⟨.error (.unclosed 5), 2, ()⟩ := by
    with_unfolding_all rfl
  exact construction.passage_rests_on_stretch .expression read rfl rfl

end Interpretation

end Propositional
