import Propositional.Grammar
import Propositional.Interpretation

/-!
Reading tokens as a phrase of the grammar, under an interpretation.

A reading takes tokens from the front of a list and leaves the rest, also when it fails. One
token is looked at before it is decided what to take: connectives, negations and opening
parentheses are taken before what follows them is read, a letter is taken before it is
interpreted, and a token that is refused is not taken. Both operands of a connective are read,
the left one first, before the connective is interpreted.

What is left is always an end part of the tokens, which is why reading terminates. The equations
`read_expression` to `join_connective` determine `read` and `join` without this bound.
-/

namespace Propositional

set_option autoImplicit false

/-- What a reading results in: an outcome, the tokens it left and the state of the interpretation. -/
structure Reading (State Value : Type) where
  outcome : Except Failure Value
  rest : List Token
  state : State

namespace Reading

variable {State Value : Type}

def refused (tokens : List Token) (state : State) : Reading State Value :=
  match tokens with
  | [] => ⟨.error .incomplete, [], state⟩
  | token :: rest => ⟨.error (.unexpected token.literal token.offset), token :: rest, state⟩

def apply (change : Value → State → Value × State) (reading : Reading State Value) :
    Reading State Value :=
  match reading with
  | ⟨.error failure, rest, state⟩ => ⟨.error failure, rest, state⟩
  | ⟨.ok value, rest, state⟩ => ⟨.ok (change value state).1, rest, (change value state).2⟩

/-- Takes the parenthesis that closes what was read. The position is that of the opening one. -/
def close (offset : Nat) (reading : Reading State Value) : Reading State Value :=
  match reading with
  | ⟨.error failure, rest, state⟩ => ⟨.error failure, rest, state⟩
  | ⟨.ok _, [], state⟩ => ⟨.error (.unclosed offset), [], state⟩
  | ⟨.ok value, token :: rest, state⟩ =>
      if token.kind = .closing then ⟨.ok value, rest, state⟩
      else ⟨.error (.unclosed offset), token :: rest, state⟩

theorem rest_refused (tokens : List Token) (state : State) :
    (refused tokens state : Reading State Value).rest = tokens := by
  cases tokens <;> rfl

theorem rest_apply (change : Value → State → Value × State) (reading : Reading State Value) :
    (reading.apply change).rest = reading.rest := by
  unfold apply
  split <;> rfl

theorem rest_close_suffix (offset : Nat) (reading : Reading State Value) :
    (reading.close offset).rest <:+ reading.rest := by
  unfold close
  split
  · exact List.suffix_refl _
  · exact List.suffix_refl _
  · split
    · exact List.suffix_cons _ _
    · exact List.suffix_refl _

theorem apply_succeeded {change : Value → State → Value × State} {reading : Reading State Value}
    {value : Value} (succeeded : (reading.apply change).outcome = .ok value) :
    ∃ inner, reading.outcome = .ok inner ∧ value = (change inner reading.state).1 := by
  match reading with
  | ⟨.error failure, rest, state⟩ => cases succeeded
  | ⟨.ok inner, rest, state⟩ =>
      cases succeeded
      exact ⟨inner, rfl, rfl⟩

theorem apply_failed {change : Value → State → Value × State} {reading : Reading State Value}
    {failure : Failure} (failed : (reading.apply change).outcome = .error failure) :
    reading.outcome = .error failure := by
  match reading with
  | ⟨.error _, _, _⟩ => exact failed
  | ⟨.ok _, _, _⟩ => cases failed

theorem close_succeeded {offset : Nat} {reading : Reading State Value} {value : Value}
    (succeeded : (reading.close offset).outcome = .ok value) :
    ∃ token, token.kind = .closing ∧ reading.outcome = .ok value ∧
      reading.rest = token :: (reading.close offset).rest := by
  match reading with
  | ⟨.error failure, rest, state⟩ => cases succeeded
  | ⟨.ok inner, [], state⟩ => cases succeeded
  | ⟨.ok inner, token :: rest, state⟩ =>
      by_cases closes : token.kind = .closing
      · simp only [close, if_pos closes] at succeeded ⊢
        exact ⟨token, closes, succeeded, rfl⟩
      · simp only [close, if_neg closes] at succeeded
        cases succeeded

theorem close_failed {offset : Nat} {reading : Reading State Value} {failure : Failure}
    (failed : (reading.close offset).outcome = .error failure) :
    reading.outcome = .error failure ∨
      ∃ value, reading.outcome = .ok value ∧ failure = .unclosed offset := by
  match reading with
  | ⟨.error _, _, _⟩ => exact .inl failed
  | ⟨.ok value, [], _⟩ =>
      cases failed
      exact .inr ⟨value, rfl, rfl⟩
  | ⟨.ok value, token :: rest, state⟩ =>
      by_cases closes : token.kind = .closing
      · simp only [close, if_pos closes] at failed
        cases failed
      · simp only [close, if_neg closes] at failed
        cases failed
        exact .inr ⟨value, rfl, rfl⟩

theorem rest_close_failed {offset : Nat} {reading : Reading State Value} {failure : Failure}
    (failed : (reading.close offset).outcome = .error failure) :
    (reading.close offset).rest = reading.rest := by
  match reading with
  | ⟨.error failure, rest, state⟩ => rfl
  | ⟨.ok inner, [], state⟩ => rfl
  | ⟨.ok inner, token :: rest, state⟩ =>
      by_cases closes : token.kind = .closing
      · simp only [close, if_pos closes] at failed
        cases failed
      · simp only [close, if_neg closes]

end Reading

abbrev ReadingOf (State Value : Type) (tokens : List Token) :=
  { reading : Reading State Value // reading.rest <:+ tokens }

theorem rest_length_le {State Value : Type} {tokens : List Token}
    (reading : ReadingOf State Value tokens) : reading.val.rest.length ≤ tokens.length :=
  reading.property.length_le

namespace Interpretation

variable {State Value : Type} (interpretation : Interpretation State Value)

mutual

def readWithin (phrase : Phrase) (tokens : List Token) (state : State) :
    ReadingOf State Value tokens :=
  match phrase with
  | .expression => joinWithin .loose (readWithin .term tokens state)
  | .term => joinWithin .tight (readWithin .primary tokens state)
  | .primary =>
      match tokens with
      | [] => ⟨.refused [] state, List.suffix_refl _⟩
      | token :: rest =>
          if token.kind = .negation then
            let operand := readWithin .secondary rest state
            ⟨operand.val.apply interpretation.not, by
              rw [Reading.rest_apply]
              exact operand.property.trans (List.suffix_cons token rest)⟩
          else
            readWithin .secondary (token :: rest) state
  | .secondary =>
      match tokens with
      | [] => ⟨.refused [] state, List.suffix_refl _⟩
      | token :: rest =>
          if token.kind = .opening then
            let inner := readWithin .expression rest state
            ⟨inner.val.close token.offset,
              (Reading.rest_close_suffix _ _).trans
                (inner.property.trans (List.suffix_cons token rest))⟩
          else
            match token.name? with
            | none => ⟨.refused (token :: rest) state, List.suffix_refl _⟩
            | some name =>
                let (outcome, later) := interpretation.letter name state
                ⟨⟨outcome, rest, later⟩, List.suffix_cons token rest⟩
termination_by 4 * tokens.length + phrase.rank
decreasing_by
  all_goals simp only [Phrase.rank, List.length_cons]
  all_goals first
    | omega
    | exact Nat.lt_of_le_of_lt (Nat.mul_le_mul_left 4 (rest_length_le _))
        (Nat.lt_add_of_pos_right (by decide))

def joinWithin (strength : Strength) {tokens : List Token} (left : ReadingOf State Value tokens) :
    ReadingOf State Value tokens :=
  match left with
  | ⟨⟨.error failure, rest, state⟩, within⟩ => ⟨⟨.error failure, rest, state⟩, within⟩
  | ⟨⟨.ok value, [], state⟩, within⟩ => ⟨⟨.ok value, [], state⟩, within⟩
  | ⟨⟨.ok value, token :: rest, state⟩, within⟩ =>
      match token.joins? strength with
      | none => ⟨⟨.ok value, token :: rest, state⟩, within⟩
      | some connective =>
          let right := readWithin strength.operand rest state
          joinWithin strength
            ⟨right.val.apply (interpretation.binary connective value), by
              rw [Reading.rest_apply]
              exact right.property.trans ((List.suffix_cons token rest).trans within)⟩
termination_by 4 * left.val.rest.length
decreasing_by
  · cases strength <;> simp only [Strength.operand, Phrase.rank, List.length_cons] <;> omega
  · simp only [Reading.rest_apply, List.length_cons]
    exact Nat.mul_lt_mul_of_pos_left (Nat.lt_succ_of_le (rest_length_le _)) (by decide)

end

def read (phrase : Phrase) (tokens : List Token) (state : State) : Reading State Value :=
  (interpretation.readWithin phrase tokens state).val

/-- Goes on from what has been read as long as a connective of the given strength follows. -/
def join (strength : Strength) (left : Reading State Value) : Reading State Value :=
  (interpretation.joinWithin strength
    (⟨left, List.suffix_refl _⟩ : ReadingOf State Value left.rest)).val

theorem rest_read_suffix (phrase : Phrase) (tokens : List Token) (state : State) :
    (interpretation.read phrase tokens state).rest <:+ tokens :=
  (interpretation.readWithin phrase tokens state).property

theorem join_within_congr (strength : Strength) {first second : List Token} :
    ∀ (left : Reading State Value) (inFirst : left.rest <:+ first)
      (inSecond : left.rest <:+ second),
      (interpretation.joinWithin strength ⟨left, inFirst⟩).val =
        (interpretation.joinWithin strength ⟨left, inSecond⟩).val
  | ⟨.error failure, rest, state⟩, _, _ => by simp only [joinWithin]
  | ⟨.ok value, [], state⟩, _, _ => by simp only [joinWithin]
  | ⟨.ok value, token :: rest, state⟩, _, _ => by
      simp only [joinWithin]
      split
      · rfl
      · exact join_within_congr strength _ _ _
termination_by left => left.rest.length
decreasing_by
  simp only [Reading.rest_apply, List.length_cons]
  exact Nat.lt_succ_of_le (rest_length_le _)

theorem read_expression (tokens : List Token) (state : State) :
    interpretation.read .expression tokens state =
      interpretation.join .loose (interpretation.read .term tokens state) := by
  rw [read, readWithin]
  exact interpretation.join_within_congr _ _ _ _

theorem read_term (tokens : List Token) (state : State) :
    interpretation.read .term tokens state =
      interpretation.join .tight (interpretation.read .primary tokens state) := by
  rw [read, readWithin]
  exact interpretation.join_within_congr _ _ _ _

theorem read_nothing (phrase : Phrase) (state : State) :
    interpretation.read phrase [] state = .refused [] state := by
  cases phrase <;> simp [read, readWithin, joinWithin, Reading.refused]

theorem read_primary (token : Token) (rest : List Token) (state : State) :
    interpretation.read .primary (token :: rest) state =
      if token.kind = .negation then
        (interpretation.read .secondary rest state).apply interpretation.not
      else
        interpretation.read .secondary (token :: rest) state := by
  rw [read, readWithin]
  split <;> rfl

theorem read_secondary (token : Token) (rest : List Token) (state : State) :
    interpretation.read .secondary (token :: rest) state =
      if token.kind = .opening then
        (interpretation.read .expression rest state).close token.offset
      else
        match token.name? with
        | none => .refused (token :: rest) state
        | some name =>
            ⟨(interpretation.letter name state).1, rest, (interpretation.letter name state).2⟩ := by
  rw [read, readWithin]
  split
  · rfl
  · split <;> simp_all

theorem join_error (strength : Strength) (failure : Failure) (rest : List Token) (state : State) :
    interpretation.join strength ⟨.error failure, rest, state⟩ =
      ⟨.error failure, rest, state⟩ := by
  simp only [join, joinWithin]

theorem join_nothing (strength : Strength) (value : Value) (state : State) :
    interpretation.join strength ⟨.ok value, [], state⟩ = ⟨.ok value, [], state⟩ := by
  simp only [join, joinWithin]

theorem join_token (strength : Strength) (value : Value) (token : Token) (rest : List Token)
    (state : State) :
    interpretation.join strength ⟨.ok value, token :: rest, state⟩ =
      match token.joins? strength with
      | none => ⟨.ok value, token :: rest, state⟩
      | some connective =>
          interpretation.join strength
            ((interpretation.read strength.operand rest state).apply
              (interpretation.binary connective value)) := by
  rw [join, joinWithin]
  split
  · rfl
  · exact interpretation.join_within_congr _ _ _ _

/-- Reads the tokens as one expression. Tokens that follow it are a fault unless allowed. -/
def readAll (tokens : List Token) (allowTrailing : Bool) (state : State) :
    Except Failure Value × State :=
  match interpretation.read .expression tokens state with
  | ⟨.ok value, [], state⟩ => (.ok value, state)
  | ⟨.ok value, token :: _, state⟩ =>
      (if allowTrailing then .ok value else .error (.trailing token.offset), state)
  | ⟨.error failure, _, state⟩ => (.error failure, state)

def readTimes : Nat → List Token → State → List (Except Failure Value)
  | 0, _, _ => []
  | count + 1, tokens, state =>
      let reading := interpretation.read .expression tokens state
      reading.outcome :: readTimes count reading.rest reading.state

end Interpretation

def Formula.ofTokens (tokens : List Token) (allowTrailing : Bool) : Except Failure Formula :=
  (Interpretation.construction.readAll tokens allowTrailing ()).1

/-- The truth value of the formula that some tokens write, found while they are read: a variable
without a value is reported where it is read, before any fault further on. -/
def evaluateTokens (valuation : Valuation) (tokens : List Token) (allowTrailing : Bool) :
    Except Failure Bool :=
  ((Interpretation.evaluation valuation).readAll tokens allowTrailing ()).1

/-- The uses made of an interpretation while tokens are read, the first use first, and the number
of the use that gave the value of the whole. -/
def traceTokens (isUndefined : Variable → Bool) (tokens : List Token) (allowTrailing : Bool) :
    Except Failure Nat × List Interpretation.Use :=
  let (outcome, uses) := (Interpretation.recording isUndefined).readAll tokens allowTrailing []
  (outcome, uses.reverse)

end Propositional
