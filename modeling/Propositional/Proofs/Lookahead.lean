import Propositional.Proofs.ReadingInduction

/-!
Reading looks one token ahead and no further. What a reading takes is the same, and it results in
the same, in front of any other tokens of which the first is the one that was looked at. This is
shown phrase by phrase, and for the loop by induction over it.
-/

namespace Propositional

set_option autoImplicit false

namespace Reading

variable {State Value : Type}

def leaving (rest : List Token) (reading : Reading State Value) : Reading State Value :=
  ⟨reading.outcome, rest, reading.state⟩

theorem apply_leaving (change : Value → State → Value × State) (rest : List Token)
    (reading : Reading State Value) :
    (reading.leaving rest).apply change = (reading.apply change).leaving rest := by
  match reading with
  | ⟨.error failure, _, state⟩ => rfl
  | ⟨.ok value, _, state⟩ => rfl

theorem close_leaving (offset : Nat) (reading : Reading State Value) :
    ∃ taken, reading.rest = taken ++ (reading.close offset).rest ∧
      ∀ other, other.head? = (reading.close offset).rest.head? →
        (reading.leaving (taken ++ other)).close offset =
          (reading.close offset).leaving other := by
  match reading with
  | ⟨.error failure, rest, state⟩ => exact ⟨[], rfl, fun other _ => rfl⟩
  | ⟨.ok value, [], state⟩ =>
      refine ⟨[], rfl, ?_⟩
      intro other same
      have none : other = [] := List.head?_eq_none_iff.1 same
      rw [none]
      rfl
  | ⟨.ok value, token :: rest, state⟩ =>
      by_cases closes : token.kind = .closing
      · refine ⟨[token], ?_, ?_⟩
        · simp only [close, if_pos closes]
          rfl
        · intro other _
          simp only [leaving, List.singleton_append, close, if_pos closes]
      · simp only [close, if_neg closes]
        refine ⟨[], rfl, ?_⟩
        intro other same
        cases other with
        | nil => cases same
        | cons first others =>
            cases same
            simp only [leaving, List.nil_append, if_neg closes]

theorem is_complete_leaving {strength : Strength} {reading : Reading State Value}
    {other : List Token} (complete : reading.IsComplete strength)
    (same : other.head? = reading.rest.head?) : (reading.leaving other).IsComplete strength := by
  intro value succeeded token later split
  change other = token :: later at split
  rw [split] at same
  obtain ⟨rest, kept⟩ := List.head?_eq_some_iff.1 same.symm
  exact complete value succeeded token rest kept

end Reading

theorem head_append {first second : List Token} (before : List Token)
    (same : first.head? = second.head?) :
    (before ++ first).head? = (before ++ second).head? := by
  rw [List.head?_append, List.head?_append, same]

namespace Interpretation

variable {State Value : Type} (interpretation : Interpretation State Value)

/-- Of other tokens behind those which reading the phrase takes, it matters only which is first. -/
def LooksAhead (phrase : Phrase) (tokens : List Token) (state : State) : Prop :=
  ∃ taken, tokens = taken ++ (interpretation.read phrase tokens state).rest ∧
    ∀ other, other.head? = (interpretation.read phrase tokens state).rest.head? →
      interpretation.read phrase (taken ++ other) state =
        (interpretation.read phrase tokens state).leaving other

variable {interpretation}

theorem looks_ahead_nothing (phrase : Phrase) (state : State) :
    interpretation.LooksAhead phrase [] state := by
  unfold LooksAhead
  rw [interpretation.read_nothing]
  refine ⟨[], rfl, ?_⟩
  intro other same
  have none : other = [] := List.head?_eq_none_iff.1 same
  rw [none, List.append_nil, interpretation.read_nothing]
  rfl

theorem looks_ahead_enclosed {token : Token} {rest : List Token} {state : State}
    (opens : token.kind = .opening) (inner : interpretation.LooksAhead .expression rest state) :
    interpretation.LooksAhead .secondary (token :: rest) state := by
  obtain ⟨innerTaken, innerSplit, innerFollows⟩ := inner
  obtain ⟨taken, split, follows⟩ :=
    (interpretation.read .expression rest state).close_leaving token.offset
  unfold LooksAhead
  rw [interpretation.read_secondary, if_pos opens]
  refine ⟨token :: (innerTaken ++ taken), ?_, ?_⟩
  · rw [List.cons_append, List.append_assoc, ← split, ← innerSplit]
  · intro other same
    have inside := innerFollows (taken ++ other) (by
      rw [split]
      exact head_append taken same)
    rw [List.cons_append, List.append_assoc, interpretation.read_secondary, if_pos opens, inside,
      follows other same]

theorem looks_ahead_letter {token : Token} {rest : List Token} {state : State}
    (notOpening : token.kind ≠ .opening) :
    interpretation.LooksAhead .secondary (token :: rest) state := by
  unfold LooksAhead
  rw [interpretation.read_secondary, if_neg notOpening]
  cases named : token.name? with
  | none =>
      refine ⟨[], rfl, ?_⟩
      intro other same
      match other with
      | [] => cases same
      | first :: others =>
          cases same
          rw [List.nil_append, interpretation.read_secondary, if_neg notOpening, named]
          rfl
  | some name =>
      refine ⟨[token], rfl, ?_⟩
      intro other _
      rw [List.singleton_append, interpretation.read_secondary, if_neg notOpening, named]
      rfl

theorem looks_ahead_negation {token : Token} {rest : List Token} {state : State}
    (negates : token.kind = .negation)
    (operand : interpretation.LooksAhead .secondary rest state) :
    interpretation.LooksAhead .primary (token :: rest) state := by
  obtain ⟨taken, split, follows⟩ := operand
  unfold LooksAhead
  rw [interpretation.read_primary, if_pos negates, Reading.rest_apply]
  refine ⟨token :: taken, congrArg (token :: ·) split, ?_⟩
  intro other same
  rw [List.cons_append, interpretation.read_primary, if_pos negates, follows other same,
    Reading.apply_leaving]

theorem looks_ahead_plain {token : Token} {rest : List Token} {state : State}
    (plain : token.kind ≠ .negation)
    (secondary : interpretation.LooksAhead .secondary (token :: rest) state) :
    interpretation.LooksAhead .primary (token :: rest) state := by
  obtain ⟨taken, split, follows⟩ := secondary
  unfold LooksAhead
  rw [interpretation.read_primary, if_neg plain]
  refine ⟨taken, split, ?_⟩
  intro other same
  -- the token is either taken or the one that was looked at
  have first : (taken ++ other).head? = some token := by
    rw [head_append taken same, ← split]
    rfl
  obtain ⟨later, whole⟩ := List.head?_eq_some_iff.1 first
  rw [whole, interpretation.read_primary, if_neg plain, ← whole, follows other same]

/-- The loop takes the same connectives and operands, if the operands look one token ahead. -/
theorem join_leaving (strength : Strength) {bound : Nat}
    (operands : ∀ (rest : List Token) (state : State), rest.length < bound →
      interpretation.LooksAhead strength.operand rest state)
    (left : Reading State Value) (within : left.rest.length ≤ bound) :
    ∃ taken, left.rest = taken ++ (interpretation.join strength left).rest ∧
      ∀ other, other.head? = (interpretation.join strength left).rest.head? →
        interpretation.join strength (left.leaving (taken ++ other)) =
          (interpretation.join strength left).leaving other := by
  induction left using interpretation.join_induction strength with
  | complete left complete =>
      rw [interpretation.join_complete strength left complete]
      refine ⟨[], rfl, ?_⟩
      intro other same
      exact interpretation.join_complete strength _ (Reading.is_complete_leaving complete same)
  | step value token rest state connective joins induction =>
      have shorter : rest.length < bound := within
      obtain ⟨operandTaken, operandSplit, operandFollows⟩ := operands rest state shorter
      obtain ⟨taken, split, follows⟩ := induction (by
        rw [Reading.rest_apply]
        have bounded := (interpretation.rest_read_suffix strength.operand rest state).length_le
        omega)
      rw [Reading.rest_apply] at split
      rw [interpretation.join_connective joins]
      refine ⟨token :: (operandTaken ++ taken), ?_, ?_⟩
      · rw [List.cons_append, List.append_assoc, ← split, ← operandSplit]
      · intro other same
        have behind := operandFollows (taken ++ other) (by
          rw [split]
          exact head_append taken same)
        rw [Reading.leaving, List.cons_append, List.append_assoc,
          interpretation.join_connective joins, behind, Reading.apply_leaving, follows other same]

theorem looks_ahead_whole {strength : Strength} {tokens : List Token} {state : State}
    (operand : interpretation.LooksAhead strength.operand tokens state)
    (operands : ∀ (rest : List Token) (state : State), rest.length < tokens.length →
      interpretation.LooksAhead strength.operand rest state) :
    interpretation.LooksAhead strength.whole tokens state := by
  obtain ⟨operandTaken, operandSplit, operandFollows⟩ := operand
  obtain ⟨taken, split, follows⟩ := join_leaving strength operands
    (interpretation.read strength.operand tokens state)
    (interpretation.rest_read_suffix strength.operand tokens state).length_le
  unfold LooksAhead
  rw [interpretation.read_whole]
  refine ⟨operandTaken ++ taken, ?_, ?_⟩
  · rw [List.append_assoc, ← split, ← operandSplit]
  · intro other same
    have first := operandFollows (taken ++ other) (by
      rw [split]
      exact head_append taken same)
    rw [interpretation.read_whole, List.append_assoc, first, follows other same]

variable (interpretation)

/-- Every phrase is read with one token of lookahead, whatever the interpretation. -/
theorem read_looks_ahead (phrase : Phrase) (tokens : List Token) (state : State) :
    interpretation.LooksAhead phrase tokens state := by
  induction phrase, tokens using reading_induction generalizing state with
  | nothing phrase => exact looks_ahead_nothing phrase state
  | secondary token rest expression =>
      by_cases opens : token.kind = .opening
      · exact looks_ahead_enclosed opens (expression state)
      · exact looks_ahead_letter opens
  | primary token rest operand plain =>
      by_cases negates : token.kind = .negation
      · exact looks_ahead_negation negates (operand state)
      · exact looks_ahead_plain negates (plain state)
  | whole strength tokens operand later =>
      exact looks_ahead_whole (operand state) (fun rest state shorter => later rest shorter state)

end Interpretation

end Propositional
