import Propositional.Proofs.Cursor

/-!
Reading with a cursor, call by call. Phrases call for one another, and an enclosed expression calls
for an expression again. `Returns` gives the rules alone: each sees the tokens only at the cursor,
and nothing in them says that a call comes to an end. A call that does comes to one end only, and
leaves the cursor in the range of the tokens, not behind where it was, and further on if a phrase
was read.
-/

namespace Propositional

set_option autoImplicit false

theorem position_lt_of_token {tokens : List Token} {position : Nat} {token : Token}
    (here : tokens[position]? = some token) : position < tokens.length :=
  (List.getElem?_eq_some_iff.1 here).choose

namespace Passage

variable {State Value : Type}

def succeeds (passage : Passage State Value) : Bool :=
  passage.outcome.isOk

def apply (change : Value → State → Value × State) (passage : Passage State Value) :
    Passage State Value :=
  match passage with
  | ⟨.error failure, position, state⟩ => ⟨.error failure, position, state⟩
  | ⟨.ok value, position, state⟩ => ⟨.ok (change value state).1, position, (change value state).2⟩

def close (tokens : List Token) (offset : Nat) (passage : Passage State Value) :
    Passage State Value :=
  match passage with
  | ⟨.error failure, position, state⟩ => ⟨.error failure, position, state⟩
  | ⟨.ok value, position, state⟩ =>
      match tokens[position]? with
      | none => ⟨.error (.unclosed offset), position, state⟩
      | some token =>
          if token.kind = .closing then ⟨.ok value, position + 1, state⟩
          else ⟨.error (.unclosed offset), position, state⟩

theorem position_apply (change : Value → State → Value × State) (passage : Passage State Value) :
    (passage.apply change).position = passage.position := by
  obtain ⟨outcome, position, state⟩ := passage
  cases outcome <;> rfl

theorem position_le_close (tokens : List Token) (offset : Nat) (passage : Passage State Value) :
    passage.position ≤ (passage.close tokens offset).position := by
  obtain ⟨outcome, position, state⟩ := passage
  cases outcome with
  | error failure => exact Nat.le_refl _
  | ok value =>
      simp only [close]
      split
      · exact Nat.le_refl _
      · split
        · exact Nat.le_succ _
        · exact Nat.le_refl _

theorem position_close_le {tokens : List Token} {offset : Nat} {passage : Passage State Value}
    (within : passage.position ≤ tokens.length) :
    (passage.close tokens offset).position ≤ tokens.length := by
  obtain ⟨outcome, position, state⟩ := passage
  cases outcome with
  | error failure => exact within
  | ok value =>
      simp only [close]
      split
      · exact within
      next token here =>
        split
        · exact position_lt_of_token here
        · exact within

end Passage

/-- What is called for in the course of a reading: a phrase that begins at the cursor, or going on
from a passage as long as connectives of the given strength follow. -/
inductive Call (State Value : Type) where
  | read (phrase : Phrase) (position : Nat) (state : State)
  | resume (strength : Strength) (left : Passage State Value)

namespace Call

variable {State Value : Type}

def start : Call State Value → Nat
  | .read _ position _ => position
  | .resume _ left => left.position

/-- The least position at which the call can leave the cursor when it succeeds. -/
def least : Call State Value → Nat
  | .read _ position _ => position + 1
  | .resume _ left => left.position

end Call

namespace Interpretation

section

variable {State Value : Type} (interpretation : Interpretation State Value) (tokens : List Token)

/-- `Returns call passage` holds when the call comes to an end and results in the passage. -/
inductive Returns : Call State Value → Passage State Value → Prop where
  | nothing {position : Nat} {state : State} (absent : tokens[position]? = none) :
      Returns (.read .secondary position state) ⟨.error .incomplete, position, state⟩
  | enclosed {position : Nat} {state : State} {token : Token} {inner : Passage State Value}
      (here : tokens[position]? = some token) (opens : token.kind = .opening)
      (inside : Returns (.read .expression (position + 1) state) inner) :
      Returns (.read .secondary position state) (inner.close tokens token.offset)
  | letter {position : Nat} {state : State} {token : Token} {name : Variable}
      (here : tokens[position]? = some token) (named : token.name? = some name) :
      Returns (.read .secondary position state)
        ⟨(interpretation.letter name state).1, position + 1, (interpretation.letter name state).2⟩
  | refused {position : Nat} {state : State} {token : Token}
      (here : tokens[position]? = some token) (notOpening : token.kind ≠ .opening)
      (unnamed : token.name? = none) :
      Returns (.read .secondary position state)
        ⟨.error (.unexpected token.literal token.offset), position, state⟩
  | negation {position : Nat} {state : State} {token : Token} {operand : Passage State Value}
      (here : tokens[position]? = some token) (negates : token.kind = .negation)
      (behind : Returns (.read .secondary (position + 1) state) operand) :
      Returns (.read .primary position state) (operand.apply interpretation.not)
  | plain {position : Nat} {state : State} {passage : Passage State Value}
      (apart : ∀ token, tokens[position]? = some token → token.kind ≠ .negation)
      (same : Returns (.read .secondary position state) passage) :
      Returns (.read .primary position state) passage
  | term {position : Nat} {state : State} {left passage : Passage State Value}
      (first : Returns (.read .primary position state) left)
      (further : Returns (.resume .tight left) passage) :
      Returns (.read .term position state) passage
  | expression {position : Nat} {state : State} {left passage : Passage State Value}
      (first : Returns (.read .term position state) left)
      (further : Returns (.resume .loose left) passage) :
      Returns (.read .expression position state) passage
  | joined {strength : Strength} {value : Value} {position : Nat} {state : State} {token : Token}
      {connective : Connective} {right passage : Passage State Value}
      (here : tokens[position]? = some token) (joins : token.joins? strength = some connective)
      (operand : Returns (.read strength.operand (position + 1) state) right)
      (further : Returns
        (.resume strength (right.apply (interpretation.binary connective value))) passage) :
      Returns (.resume strength ⟨.ok value, position, state⟩) passage
  | finished {strength : Strength} {value : Value} {position : Nat} {state : State}
      (stops : ∀ token, tokens[position]? = some token → token.joins? strength = none) :
      Returns (.resume strength ⟨.ok value, position, state⟩) ⟨.ok value, position, state⟩
  | failed {strength : Strength} {failure : Failure} {position : Nat} {state : State} :
      Returns (.resume strength ⟨.error failure, position, state⟩)
        ⟨.error failure, position, state⟩

end

variable {State Value : Type} {interpretation : Interpretation State Value} {tokens : List Token}

namespace Returns

theorem unique {call : Call State Value} {passage other : Passage State Value}
    (returns : interpretation.Returns tokens call passage)
    (otherwise : interpretation.Returns tokens call other) : passage = other := by
  -- the token at the cursor decides which rule applies, and the calls it makes have one end each
  induction returns generalizing other with
  | nothing absent =>
      cases otherwise with
      | nothing _ => rfl
      | enclosed here _ _ | letter here _ | refused here _ _ => cases absent.symm.trans here
  | enclosed here opens _ induction =>
      cases otherwise with
      | nothing absent => cases absent.symm.trans here
      | enclosed again _ inside =>
          cases here.symm.trans again
          rw [induction inside]
      | letter again named =>
          cases here.symm.trans again
          cases opens.symm.trans (Token.kind_of_name named)
      | refused again notOpening _ =>
          cases here.symm.trans again
          exact absurd opens notOpening
  | letter here named =>
      cases otherwise with
      | nothing absent => cases absent.symm.trans here
      | enclosed again opens _ =>
          cases here.symm.trans again
          cases opens.symm.trans (Token.kind_of_name named)
      | letter again namedAgain =>
          cases here.symm.trans again
          cases named.symm.trans namedAgain
          rfl
      | refused again _ unnamed =>
          cases here.symm.trans again
          cases named.symm.trans unnamed
  | refused here notOpening unnamed =>
      cases otherwise with
      | nothing absent => cases absent.symm.trans here
      | enclosed again opens _ =>
          cases here.symm.trans again
          exact absurd opens notOpening
      | letter again named =>
          cases here.symm.trans again
          cases named.symm.trans unnamed
      | refused again _ _ =>
          cases here.symm.trans again
          rfl
  | negation here negates _ induction =>
      cases otherwise with
      | negation _ _ behind => rw [induction behind]
      | plain apart _ => exact absurd negates (apart _ here)
  | plain apart _ induction =>
      cases otherwise with
      | negation here negates _ => exact absurd negates (apart _ here)
      | plain _ same => exact induction same
  | term _ _ first further =>
      cases otherwise with
      | term before behind =>
          cases first before
          exact further behind
  | expression _ _ first further =>
      cases otherwise with
      | expression before behind =>
          cases first before
          exact further behind
  | joined here joins _ _ operand further =>
      cases otherwise with
      | joined again joinsAgain right behind =>
          cases here.symm.trans again
          cases joins.symm.trans joinsAgain
          cases operand right
          exact further behind
      | finished stops => cases (stops _ here).symm.trans joins
  | finished stops =>
      cases otherwise with
      | joined here joins _ _ => cases (stops _ here).symm.trans joins
      | finished _ => rfl
  | failed =>
      cases otherwise
      rfl

theorem left_succeeded {strength : Strength} {left passage : Passage State Value} {value : Value}
    (returns : interpretation.Returns tokens (.resume strength left) passage)
    (succeeded : passage.outcome = .ok value) : ∃ inner, left.outcome = .ok inner := by
  cases returns with
  | joined _ _ _ _ | finished _ => exact ⟨_, rfl⟩
  | failed => cases succeeded

/-- No call moves the cursor back. -/
theorem forward {call : Call State Value} {passage : Passage State Value}
    (returns : interpretation.Returns tokens call passage) : call.start ≤ passage.position := by
  induction returns with
  | nothing _ | refused _ _ _ | finished _ | failed => exact Nat.le_refl _
  | letter _ _ => exact Nat.le_succ _
  | enclosed _ _ _ inside =>
      exact Nat.le_trans (Nat.le_of_succ_le inside) (Passage.position_le_close tokens _ _)
  | negation _ _ _ behind =>
      rw [Passage.position_apply]
      exact Nat.le_of_succ_le behind
  | plain _ _ same => exact same
  | term _ _ first further | expression _ _ first further => exact Nat.le_trans first further
  | joined _ _ _ _ operand further =>
      rw [Call.start, Passage.position_apply] at further
      exact Nat.le_trans (Nat.le_of_succ_le operand) further

/-- No call moves the cursor behind the end of the tokens. -/
theorem inside {call : Call State Value} {passage : Passage State Value}
    (returns : interpretation.Returns tokens call passage) (within : call.start ≤ tokens.length) :
    passage.position ≤ tokens.length := by
  induction returns with
  | nothing _ | refused _ _ _ | finished _ | failed => exact within
  | letter here _ => exact position_lt_of_token here
  | enclosed here _ _ inside =>
      exact Passage.position_close_le (inside (position_lt_of_token here))
  | negation here _ _ behind =>
      rw [Passage.position_apply]
      exact behind (position_lt_of_token here)
  | plain _ _ same => exact same within
  | term _ _ first further | expression _ _ first further => exact further (first within)
  | joined here _ _ _ operand further =>
      apply further
      rw [Call.start, Passage.position_apply]
      exact operand (position_lt_of_token here)

/-- A phrase that is read takes at least one token. -/
theorem onward {call : Call State Value} {passage : Passage State Value} {value : Value}
    (returns : interpretation.Returns tokens call passage)
    (succeeded : passage.outcome = .ok value) : call.least ≤ passage.position := by
  -- going on from a failure fails, so the call before the loop has succeeded as well
  induction returns generalizing value with
  | nothing _ | refused _ _ _ => cases succeeded
  | letter _ _ => exact Nat.le_refl _
  | enclosed _ _ inside _ =>
      exact Nat.le_trans inside.forward (Passage.position_le_close tokens _ _)
  | negation _ _ behind _ =>
      rw [Passage.position_apply]
      exact behind.forward
  | plain _ _ same => exact same succeeded
  | term _ further first _ | expression _ further first _ =>
      obtain ⟨_, earlier⟩ := further.left_succeeded succeeded
      exact Nat.le_trans (first earlier) further.forward
  | joined _ _ operand further _ _ =>
      have behind := further.forward
      rw [Call.start, Passage.position_apply] at behind
      exact Nat.le_trans (Nat.le_of_succ_le operand.forward) behind
  | finished _ => exact Nat.le_refl _
  | failed => cases succeeded

end Returns

end Interpretation

end Propositional
