import Mathlib.Data.List.Basic
import Propositional.Proofs.TrailingTokens

/-!
Reading with a cursor. The tokens stay as they are, and each reading begins where the one before it
left the cursor. Expressions can stand one behind the other with no mark between them: none begins
with a connective, so an expression is read to its end and not into the next one.
-/

namespace Propositional

set_option autoImplicit false

open Interpretation (construction)

structure Passage (State Value : Type) where
  outcome : Except Failure Value
  position : Nat
  state : State

namespace Interpretation

variable {State Value : Type} (interpretation : Interpretation State Value)

/-- Reads a phrase from the position of the cursor onwards. The cursor passes the tokens that are
taken. -/
def readAt (phrase : Phrase) (tokens : List Token) (position : Nat) (state : State) :
    Passage State Value :=
  let ahead := tokens.drop position
  let reading := interpretation.read phrase ahead state
  ⟨reading.outcome, position + (ahead.length - reading.rest.length), reading.state⟩

/-- Reads an expression a number of times, each time from where the cursor was left. -/
def readInTurn (tokens : List Token) : Nat → Nat → State → List (Passage State Value)
  | 0, _, _ => []
  | count + 1, position, state =>
      let passage := interpretation.readAt .expression tokens position state
      passage :: readInTurn tokens count passage.position passage.state

theorem drop_position_read_at (phrase : Phrase) (tokens : List Token) (position : Nat)
    (state : State) :
    tokens.drop (interpretation.readAt phrase tokens position state).position =
      (interpretation.read phrase (tokens.drop position) state).rest := by
  obtain ⟨taken, split⟩ := interpretation.rest_read_suffix phrase (tokens.drop position) state
  simp only [readAt]
  generalize (interpretation.read phrase (tokens.drop position) state).rest = rest at split
  rw [← List.drop_drop, ← split, List.length_append, Nat.add_sub_cancel, List.drop_left]

theorem outcomes_read_in_turn (tokens : List Token) (count position : Nat) (state : State) :
    (interpretation.readInTurn tokens count position state).map Passage.outcome =
      interpretation.readTimes count (tokens.drop position) state := by
  induction count generalizing position state with
  | zero => rfl
  | succ count induction =>
      simp only [readInTurn, readTimes, List.map_cons]
      rw [induction, drop_position_read_at]
      rfl

theorem read_at_of_read {phrase : Phrase} {tokens taken rest : List Token} {position : Nat}
    {state later : State} {outcome : Except Failure Value}
    (split : tokens.drop position = taken ++ rest)
    (read : interpretation.read phrase (taken ++ rest) state = ⟨outcome, rest, later⟩) :
    interpretation.readAt phrase tokens position state =
      ⟨outcome, position + taken.length, later⟩ := by
  simp only [readAt, split, read, List.length_append, Nat.add_sub_cancel]

theorem read_at_end {tokens : List Token} {position : Nat} (finished : tokens.drop position = [])
    (phrase : Phrase) (state : State) :
    interpretation.readAt phrase tokens position state = ⟨.error .incomplete, position, state⟩ := by
  have split : tokens.drop position = [] ++ [] := finished
  exact interpretation.read_at_of_read split (interpretation.read_nothing phrase state)

theorem read_in_turn_at_end {tokens : List Token} {position : Nat}
    (finished : tokens.drop position = []) (count : Nat) (state : State) :
    interpretation.readInTurn tokens count position state =
      List.replicate count ⟨.error .incomplete, position, state⟩ := by
  induction count with
  | zero => rfl
  | succ count induction =>
      rw [readInTurn, interpretation.read_at_end finished, induction]
      rfl

end Interpretation

theorem Derives.begins_apart {phrase : Phrase} {tokens : List Token} {formula : Formula}
    (derived : Derives phrase tokens formula) :
    ∀ token ∈ tokens.head?, ∀ connective, token.kind ≠ .joining connective := by
  have begun {token : Token} {kind : Kind} {others : List Token} (same : token.kind = kind)
      (apart : ∀ connective, kind ≠ .joining connective) :
      ∀ first ∈ (token :: others).head?, ∀ connective, first.kind ≠ .joining connective := by
    intro first member
    cases member
    rw [same]
    exact apart
  induction derived with
  | letter named => exact begun (Token.kind_of_name named) (fun connective => Kind.noConfusion)
  | enclosed opens _ _ _ => exact begun opens (fun connective => Kind.noConfusion)
  | negation negates _ _ => exact begun negates (fun connective => Kind.noConfusion)
  | secondary _ inner => exact inner
  | primary _ inner => exact inner
  | term _ inner => exact inner
  | tight _ before _ earlier _ =>
      rw [List.head?_append_of_ne_nil _ before.nonempty]
      exact earlier
  | loose _ before _ earlier _ =>
      rw [List.head?_append_of_ne_nil _ before.nonempty]
      exact earlier

/-- Tokens that are an expression, with its tree. -/
structure Sentence where
  tokens : List Token
  formula : Formula
  derived : Derives .expression tokens formula

namespace Sentence

theorem ends_in_front (sentences : List Sentence) :
    Ends .expression (sentences.flatMap Sentence.tokens) := by
  cases sentences with
  | nil => exact ends_nil .expression
  | cons sentence sentences =>
      apply Ends.of_apart
      rw [List.flatMap_cons, List.head?_append_of_ne_nil _ sentence.derived.nonempty]
      exact sentence.derived.begins_apart

theorem read_in_turn_from {tokens : List Token} (sentences : List Sentence) (further : Nat)
    {position : Nat} (ahead : tokens.drop position = sentences.flatMap Sentence.tokens) :
    construction.readInTurn tokens (sentences.length + further) position () =
      (sentences.mapIdx fun index sentence =>
        ⟨.ok sentence.formula,
          position + ((sentences.take (index + 1)).flatMap Sentence.tokens).length, ()⟩) ++
      List.replicate further
        ⟨.error .incomplete, position + (sentences.flatMap Sentence.tokens).length, ()⟩ := by
  induction sentences generalizing position with
  | nil =>
      rw [List.length_nil, Nat.zero_add, construction.read_in_turn_at_end ahead]
      rfl
  | cons sentence sentences induction =>
      rw [List.flatMap_cons] at ahead
      have passage := construction.read_at_of_read ahead
        (read_of_derives sentence.derived _ (ends_in_front sentences))
      have behind : tokens.drop (position + sentence.tokens.length) =
          sentences.flatMap Sentence.tokens := by
        rw [← List.drop_drop, ahead, List.drop_left]
      rw [List.length_cons, Nat.add_right_comm, Interpretation.readInTurn, passage, induction behind]
      simp only [List.mapIdx_cons, List.take_succ_cons, List.take_zero, List.flatMap_cons,
        List.flatMap_nil, List.length_append, List.length_nil, Nat.add_zero, List.cons_append,
        Nat.add_assoc]

/-- Sentences that stand one behind the other are read one behind the other: each call results in
the next tree and leaves the cursor at the end of its sentence. Behind the last sentence every call
finds that the tokens have ended, and the cursor stays. -/
theorem delimit_themselves (sentences : List Sentence) (further : Nat) :
    construction.readInTurn (sentences.flatMap Sentence.tokens) (sentences.length + further) 0 () =
      (sentences.mapIdx fun index sentence =>
        ⟨.ok sentence.formula,
          ((sentences.take (index + 1)).flatMap Sentence.tokens).length, ()⟩) ++
      List.replicate further
        ⟨.error .incomplete, (sentences.flatMap Sentence.tokens).length, ()⟩ ∧
    construction.readTimes (sentences.length + further) (sentences.flatMap Sentence.tokens) () =
      sentences.map (fun sentence => .ok sentence.formula) ++
        List.replicate further (.error .incomplete) := by
  have passages := read_in_turn_from sentences further
    (List.drop_zero (l := sentences.flatMap Sentence.tokens))
  simp only [Nat.zero_add] at passages
  have outcomes := construction.outcomes_read_in_turn (sentences.flatMap Sentence.tokens)
    (sentences.length + further) 0 ()
  rw [passages, List.drop_zero, List.map_append, List.map_replicate] at outcomes
  refine ⟨passages, outcomes.symm.trans ?_⟩
  congr 1
  apply List.ext_getElem <;> simp

/-- In `p (q) ~q` nothing but the grammar says where one expression ends and the next begins. -/
example : construction.readInTurn [⟨.letter, "p", 0⟩, ⟨.opening, "(", 2⟩, ⟨.letter, "q", 3⟩,
      ⟨.closing, ")", 4⟩, ⟨.negation, "~", 6⟩, ⟨.letter, "q", 7⟩] 4 0 () =
    [⟨.ok (.letter 'p'), 1, ()⟩, ⟨.ok (.letter 'q'), 4, ()⟩, ⟨.ok (.not (.letter 'q')), 6, ()⟩,
      ⟨.error .incomplete, 6, ()⟩] := by
  with_unfolding_all rfl

end Sentence

end Propositional
