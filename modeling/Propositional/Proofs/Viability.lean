import Propositional.Proofs.Evaluation
import Propositional.Proofs.Lookahead

/-!
Where reading to a tree fails. The tokens taken by then are the beginning of a sentence, because
each open parenthesis can be closed and each connective can be given an operand. Together with the
token at which reading stopped they are the beginning of none, because reading looks no further
than that token. So every fault is reported at the first token that rules a sentence out.
-/

namespace Propositional

set_option autoImplicit false

open Interpretation (construction)

def IsSentence (tokens : List Token) : Prop := ∃ formula, Derives .expression tokens formula

def IsViable (tokens : List Token) : Prop := ∃ suffix, IsSentence (tokens ++ suffix)

/-- The opening parentheses which are open behind some tokens, the last one first, if the outer
ones are open in front of them. A closing parenthesis matches the last one that is open. -/
def openAfter : List Token → List Token → List Token
  | outer, [] => outer
  | outer, token :: tokens =>
      match token.kind with
      | .opening => openAfter (token :: outer) tokens
      | .closing => openAfter outer.tail tokens
      | _ => openAfter outer tokens

/-- The opening parentheses without a matching closing one, the last one first. -/
def unclosed (tokens : List Token) : List Token := openAfter [] tokens

theorem open_after_append (outer before after : List Token) :
    openAfter outer (before ++ after) = openAfter (openAfter outer before) after := by
  induction before generalizing outer with
  | nil => rfl
  | cons token before induction =>
      rw [List.cons_append, openAfter, openAfter]
      split
      · exact induction (token :: outer)
      · exact induction outer.tail
      · exact induction outer

theorem open_after_opening {token : Token} (outer tokens : List Token)
    (opens : token.kind = .opening) :
    openAfter outer (token :: tokens) = openAfter (token :: outer) tokens := by
  rw [openAfter, opens]

theorem open_after_closing {token : Token} (outer tokens : List Token)
    (closes : token.kind = .closing) :
    openAfter outer (token :: tokens) = openAfter outer.tail tokens := by
  rw [openAfter, closes]

theorem open_after_letter {token : Token} {name : Variable} (outer tokens : List Token)
    (named : token.name? = some name) :
    openAfter outer (token :: tokens) = openAfter outer tokens := by
  rw [openAfter, Token.kind_of_name named]

theorem open_after_negation {token : Token} (outer tokens : List Token)
    (negates : token.kind = .negation) :
    openAfter outer (token :: tokens) = openAfter outer tokens := by
  rw [openAfter, negates]

theorem open_after_connective {token : Token} {strength : Strength} {connective : Connective}
    (outer tokens : List Token) (joins : token.joins? strength = some connective) :
    openAfter outer (token :: tokens) = openAfter outer tokens := by
  rw [openAfter, ((Token.joins_eq_some_iff _ _ _).1 joins).1]

theorem open_after_of_derives {phrase : Phrase} {tokens : List Token} {formula : Formula}
    (derived : Derives phrase tokens formula) (outer : List Token) :
    openAfter outer tokens = outer := by
  induction derived generalizing outer with
  | letter named => rw [open_after_letter _ _ named, openAfter]
  | @enclosed left right tokens formula opens closes inner matched =>
      rw [open_after_opening _ _ opens, open_after_append, matched,
        open_after_closing _ _ closes, openAfter, List.tail_cons]
  | secondary inner matched => exact matched outer
  | negation negates inner matched => rw [open_after_negation _ _ negates, matched]
  | primary inner matched => exact matched outer
  | tight joins earlier later before after =>
      rw [open_after_append, before, open_after_connective _ _ joins, after]
  | term inner matched => exact matched outer
  | loose joins earlier later before after =>
      rw [open_after_append, before, open_after_connective _ _ joins, after]

def Begins (phrase : Phrase) (tokens : List Token) : Prop :=
  ∃ suffix formula, Derives phrase (tokens ++ suffix) formula

namespace Begins

theorem of_derives {phrase : Phrase} {tokens : List Token} {formula : Formula}
    (derived : Derives phrase tokens formula) : Begins phrase tokens := by
  refine ⟨[], formula, ?_⟩
  rw [List.append_nil]
  exact derived

theorem secondary {tokens : List Token} (begins : Begins .secondary tokens) :
    Begins .primary tokens := by
  obtain ⟨suffix, formula, derived⟩ := begins
  exact ⟨suffix, formula, .secondary derived⟩

theorem operand (strength : Strength) {tokens : List Token}
    (begins : Begins strength.operand tokens) : Begins strength.whole tokens := by
  obtain ⟨suffix, formula, derived⟩ := begins
  exact ⟨suffix, formula, derived.of_operand⟩

theorem nothing (phrase : Phrase) : Begins phrase [] := by
  have letter : Begins .secondary [] :=
    ⟨[⟨.letter, "a", 0⟩], .letter 'a', .letter (by decide)⟩
  have primary := letter.secondary
  have term := operand .tight primary
  have expression := operand .loose term
  cases phrase with
  | secondary => exact letter
  | primary => exact primary
  | term => exact term
  | expression => exact expression

theorem enclosed {token : Token} {tokens : List Token} (opens : token.kind = .opening)
    (inner : Begins .expression tokens) : Begins .secondary (token :: tokens) := by
  obtain ⟨suffix, formula, derived⟩ := inner
  have closed : Derives .secondary (token :: (tokens ++ suffix ++ [⟨.closing, ")", 0⟩])) formula :=
    .enclosed opens rfl derived
  refine ⟨suffix ++ [⟨.closing, ")", 0⟩], formula, ?_⟩
  rw [List.cons_append, ← List.append_assoc]
  exact closed

theorem negation {token : Token} {tokens : List Token} (negates : token.kind = .negation)
    (inner : Begins .secondary tokens) : Begins .primary (token :: tokens) := by
  obtain ⟨suffix, formula, derived⟩ := inner
  exact ⟨suffix, .not formula, .negation negates derived⟩

theorem joined {strength : Strength} {token : Token} {connective : Connective}
    {before after : List Token} {left : Formula}
    (joins : token.joins? strength = some connective)
    (earlier : Derives strength.whole before left) (later : Begins strength.operand after) :
    Begins strength.whole (before ++ token :: after) := by
  obtain ⟨suffix, right, derived⟩ := later
  refine ⟨suffix, .binary connective left right, ?_⟩
  rw [List.append_assoc, List.cons_append]
  exact earlier.joined joins derived

end Begins

/-- What a fault found while a phrase is read has to do with the tokens taken and left by then. -/
inductive Fits : Failure → List Token → List Token → Prop where
  | incomplete (taken : List Token) : Fits .incomplete taken []
  | unexpected (taken : List Token) (token : Token) (rest : List Token) :
      Fits (.unexpected token.literal token.offset) taken (token :: rest)
  | unclosed (before : List Token) {opening : Token} {inside : List Token} (rest : List Token)
      (opens : opening.kind = .opening) (sentence : IsSentence inside) :
      Fits (.unclosed opening.offset) (before ++ opening :: inside) rest

theorem Fits.behind {failure : Failure} {taken rest : List Token} (before : List Token)
    (fits : Fits failure taken rest) : Fits failure (before ++ taken) rest := by
  cases fits with
  | incomplete taken => exact .incomplete _
  | unexpected taken token rest => exact .unexpected _ token rest
  | @unclosed inner opening inside rest opens sentence =>
      rw [← List.append_assoc]
      exact .unclosed (before ++ inner) rest opens sentence

def Falters (phrase : Phrase) (tokens : List Token) (reading : Reading Unit Formula) : Prop :=
  ∀ failure, reading.outcome = .error failure →
    ∃ taken, tokens = taken ++ reading.rest ∧ Begins phrase taken ∧
      Fits failure taken reading.rest

theorem falters_refused (phrase : Phrase) (tokens : List Token) :
    Falters phrase tokens (.refused tokens ()) := by
  intro failure failed
  refine ⟨[], (Reading.rest_refused tokens ()).symm, .nothing phrase, ?_⟩
  match tokens with
  | [] =>
      cases failed
      exact .incomplete []
  | token :: rest =>
      cases failed
      exact .unexpected [] token rest

theorem falters_close {token : Token} {rest : List Token} {inner : Reading Unit Formula}
    (opens : token.kind = .opening) (built : Builds .expression rest inner)
    (falters : Falters .expression rest inner) :
    Falters .secondary (token :: rest) (inner.close token.offset) := by
  intro failure failed
  rw [Reading.rest_close_failed failed]
  rcases Reading.close_failed failed with innerFailed | ⟨formula, succeeded, rfl⟩
  · obtain ⟨taken, split, begins, fits⟩ := falters failure innerFailed
    exact ⟨token :: taken, congrArg (token :: ·) split, begins.enclosed opens, fits.behind [token]⟩
  · obtain ⟨taken, split, derived⟩ := built formula succeeded
    exact ⟨token :: taken, congrArg (token :: ·) split, (Begins.of_derives derived).enclosed opens,
      .unclosed [] inner.rest opens ⟨formula, derived⟩⟩

theorem falters_joined {strength : Strength} {token : Token} {connective : Connective}
    {tokens rest : List Token} {left : Formula} {operand : Reading Unit Formula}
    (joins : token.joins? strength = some connective)
    (earlier : Builds strength.whole tokens ⟨.ok left, token :: rest, ()⟩)
    (later : Falters strength.operand rest operand) :
    Falters strength.whole tokens (operand.apply (construction.binary connective left)) := by
  intro failure failed
  rw [Reading.rest_apply]
  obtain ⟨before, splitBefore, derived⟩ := earlier left rfl
  obtain ⟨after, splitAfter, begins, fits⟩ := later failure (Reading.apply_failed failed)
  refine ⟨before ++ token :: after, ?_, begins.joined joins derived, ?_⟩
  · simp only [splitBefore, List.append_assoc, List.cons_append]
    rw [← splitAfter]
  · have behind := fits.behind (before ++ [token])
    rw [List.append_assoc, List.singleton_append] at behind
    exact behind

theorem falters_join (strength : Strength) (tokens : List Token) (left : Reading Unit Formula)
    (within : left.rest <:+ tokens) (built : Builds strength.whole tokens left)
    (falters : Falters strength.whole tokens left)
    (operands : ∀ rest : List Token, rest.length < tokens.length →
      Falters strength.operand rest (construction.read strength.operand rest ())) :
    Falters strength.whole tokens (construction.join strength left) := by
  apply join_invariant_of_builds strength ?_ left within built falters
  intro value token rest connective joins shorter earlier
  exact falters_joined joins earlier (operands rest shorter)

theorem falters_read (phrase : Phrase) (tokens : List Token) :
    Falters phrase tokens (construction.read phrase tokens ()) := by
  induction phrase, tokens using reading_induction with
  | nothing phrase =>
      rw [construction.read_nothing]
      exact falters_refused phrase []
  | secondary token rest expression =>
      rw [construction.read_secondary]
      by_cases opens : token.kind = .opening
      · rw [if_pos opens]
        exact falters_close opens (builds_read .expression rest) expression
      · rw [if_neg opens]
        cases named : token.name? with
        | none => exact falters_refused .secondary (token :: rest)
        | some name =>
            intro failure failed
            cases failed
  | primary token rest operand plain =>
      rw [construction.read_primary]
      by_cases negates : token.kind = .negation
      · rw [if_pos negates]
        intro failure failed
        rw [Reading.rest_apply]
        obtain ⟨taken, split, begins, fits⟩ := operand failure (Reading.apply_failed failed)
        exact ⟨token :: taken, congrArg (token :: ·) split, begins.negation negates,
          fits.behind [token]⟩
      · rw [if_neg negates]
        intro failure failed
        obtain ⟨taken, split, begins, fits⟩ := plain failure failed
        exact ⟨taken, split, begins.secondary, fits⟩
  | whole strength tokens operand later =>
      rw [construction.read_whole]
      have built := builds_operand (builds_read strength.operand tokens)
      apply falters_join strength tokens _ (construction.rest_read_suffix _ _ _) built ?_ later
      intro failure failed
      obtain ⟨taken, split, begins, fits⟩ := operand failure failed
      exact ⟨taken, split, begins.operand strength, fits⟩

theorem tokens_taken_of_split {tokens taken : List Token}
    (split : tokens = taken ++ (construction.read .expression tokens ()).rest) :
    tokensTaken tokens = taken := by
  apply List.append_cancel_right
  exact (tokens_taken_append tokens).trans split

theorem not_viable_of_left {tokens : List Token} {token : Token} {later : List Token}
    (left : (construction.read .expression tokens ()).rest = token :: later) :
    ¬ IsViable (tokensTaken tokens ++ [token]) := by
  rintro ⟨suffix, formula, derived⟩
  rw [List.append_assoc, List.singleton_append] at derived
  obtain ⟨taken, split, follows⟩ := construction.read_looks_ahead .expression tokens ()
  have same := tokens_taken_of_split split
  have stops := follows (token :: suffix) (by rw [left]; rfl)
  have whole := read_of_derives derived [] (ends_nil .expression)
  rw [List.append_nil, same, stops] at whole
  have rests := congrArg Reading.rest whole
  cases rests

/-- What a failure says of the tokens that were taken and of those that were left. -/
def IsEarliest (taken rest : List Token) : Failure → Prop
  | .incomplete => rest = [] ∧ IsViable taken ∧ ¬ IsSentence taken
  | .unexpected literal offset =>
      ∃ token later, rest = token :: later ∧ literal = token.literal ∧ offset = token.offset ∧
        IsViable taken ∧ ¬ IsViable (taken ++ [token])
  | .unclosed offset =>
      (∃ before opening inside, taken = before ++ opening :: inside ∧
        unclosed taken = opening :: unclosed before ∧ offset = opening.offset) ∧
      IsViable taken ∧
      (rest = [] ∨ ∃ token later, rest = token :: later ∧ ¬ IsViable (taken ++ [token]))
  | .trailing offset =>
      ∃ token later, rest = token :: later ∧ offset = token.offset ∧
        IsSentence taken ∧ ¬ IsViable (taken ++ [token])
  | _ => False

theorem of_tokens_eq_error {tokens : List Token} {allowTrailing : Bool} {failure : Failure}
    (failed : Formula.ofTokens tokens allowTrailing = .error failure) :
    (construction.read .expression tokens ()).outcome = .error failure ∨
      ∃ formula token later, construction.read .expression tokens () =
        ⟨.ok formula, token :: later, ()⟩ ∧ failure = .trailing token.offset := by
  unfold Formula.ofTokens Interpretation.readAll at failed
  match read : construction.read .expression tokens () with
  | ⟨.error fault, rest, ()⟩ =>
      rw [read] at failed
      exact .inl failed
  | ⟨.ok formula, [], ()⟩ =>
      rw [read] at failed
      cases failed
  | ⟨.ok formula, token :: later, ()⟩ =>
      rw [read] at failed
      cases allowTrailing with
      | true => cases failed
      | false =>
          cases failed
          exact .inr ⟨formula, token, later, rfl, rfl⟩

theorem of_tokens_ne_undefined (tokens : List Token) (allowTrailing : Bool) (name : Variable) :
    Formula.ofTokens tokens allowTrailing ≠ .error (.undefined name) := by
  intro failed
  rcases of_tokens_eq_error failed with fault | ⟨formula, token, later, _, same⟩
  · obtain ⟨taken, _, _, fits⟩ := falters_read .expression tokens _ fault
    cases fits
  · cases same

theorem is_earliest_of_fits {tokens : List Token} {failure : Failure}
    (failed : Formula.ofTokens tokens false = .error failure)
    (viable : IsViable (tokensTaken tokens))
    (fits : Fits failure (tokensTaken tokens) (construction.read .expression tokens ()).rest) :
    IsEarliest (tokensTaken tokens) (construction.read .expression tokens ()).rest failure := by
  have whole := tokens_taken_append tokens
  have stops : ∀ token later, (construction.read .expression tokens ()).rest = token :: later →
      ¬ IsViable (tokensTaken tokens ++ [token]) := fun token later => not_viable_of_left
  generalize tokensTaken tokens = taken at viable fits stops whole ⊢
  generalize (construction.read .expression tokens ()).rest = rest at fits stops whole ⊢
  cases fits with
  | incomplete taken =>
      refine ⟨rfl, viable, ?_⟩
      rintro ⟨formula, derived⟩
      rw [List.append_nil] at whole
      rw [whole, ← of_tokens_iff_derives, failed] at derived
      cases derived
  | unexpected taken token rest =>
      exact ⟨token, rest, rfl, rfl, rfl, viable, stops token rest rfl⟩
  | @unclosed before opening inside rest opens sentence =>
      obtain ⟨formula, derived⟩ := sentence
      refine ⟨⟨before, opening, inside, rfl, ?_, rfl⟩, viable, ?_⟩
      · rw [unclosed, open_after_append, open_after_opening _ _ opens,
          open_after_of_derives derived]
        rfl
      · match rest with
        | [] => exact .inl rfl
        | token :: later => exact .inr ⟨token, later, rfl, stops token later rfl⟩

/-- A fault in the tokens is found at the first one that rules a sentence out: those in front of it
begin a sentence, or are one, and with it they begin none. An end is only reported at the end, and
a missing parenthesis is that of the last opening one which is without its match. -/
theorem fault_of_tokens_is_earliest (tokens : List Token) (failure : Failure)
    (failed : Formula.ofTokens tokens false = .error failure) :
    IsEarliest (tokensTaken tokens) (construction.read .expression tokens ()).rest failure := by
  rcases of_tokens_eq_error failed with fault | ⟨formula, token, later, read, rfl⟩
  · obtain ⟨taken, split, begins, fits⟩ := falters_read .expression tokens failure fault
    rw [← tokens_taken_of_split split] at begins fits
    exact is_earliest_of_fits failed begins fits
  · obtain ⟨taken, split, derived⟩ := builds_read .expression tokens formula (by rw [read])
    have left : (construction.read .expression tokens ()).rest = token :: later := by rw [read]
    rw [← tokens_taken_of_split split] at derived
    exact ⟨token, later, left, rfl, ⟨formula, derived⟩, not_viable_of_left left⟩

/-- In `p ^ ((q) r` the second parenthesis is matched, and the letter behind it is in the place of a
match for the first one. -/
theorem fault_of_unclosed_pair_is_earliest :
    IsEarliest
      [⟨.letter, "p", 0⟩, ⟨.joining .and, "^", 2⟩, ⟨.opening, "(", 4⟩, ⟨.opening, "(", 5⟩,
        ⟨.letter, "q", 6⟩, ⟨.closing, ")", 7⟩]
      [⟨.letter, "r", 9⟩] (.unclosed 4) := by
  have failed : Formula.ofTokens
      [⟨.letter, "p", 0⟩, ⟨.joining .and, "^", 2⟩, ⟨.opening, "(", 4⟩, ⟨.opening, "(", 5⟩,
        ⟨.letter, "q", 6⟩, ⟨.closing, ")", 7⟩, ⟨.letter, "r", 9⟩] false =
      .error (.unclosed 4) := by with_unfolding_all rfl
  have taken : tokensTaken
      [⟨.letter, "p", 0⟩, ⟨.joining .and, "^", 2⟩, ⟨.opening, "(", 4⟩, ⟨.opening, "(", 5⟩,
        ⟨.letter, "q", 6⟩, ⟨.closing, ")", 7⟩, ⟨.letter, "r", 9⟩] =
      [⟨.letter, "p", 0⟩, ⟨.joining .and, "^", 2⟩, ⟨.opening, "(", 4⟩, ⟨.opening, "(", 5⟩,
        ⟨.letter, "q", 6⟩, ⟨.closing, ")", 7⟩] := by decide +kernel
  have left : (construction.read .expression
      [⟨.letter, "p", 0⟩, ⟨.joining .and, "^", 2⟩, ⟨.opening, "(", 4⟩, ⟨.opening, "(", 5⟩,
        ⟨.letter, "q", 6⟩, ⟨.closing, ")", 7⟩, ⟨.letter, "r", 9⟩] ()).rest =
      [⟨.letter, "r", 9⟩] := by decide +kernel
  have earliest := fault_of_tokens_is_earliest _ _ failed
  rw [taken, left] at earliest
  exact earliest

end Propositional
