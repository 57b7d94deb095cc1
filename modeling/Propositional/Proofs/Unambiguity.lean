import Propositional.Proofs.Derivability

/-!
Derivation trees of the grammar, with the tokens at their leaves. Reading finds the tree of an
expression exactly when there is a derivation, and no two derivations have the same tokens. What
could be split at two connectives is told apart by reading: an operand ends before the first one,
so that it cannot reach to the second.
-/

namespace Propositional

set_option autoImplicit false

open Interpretation (construction)

inductive Derivation : Phrase → Type where
  | letter (token : Token) (name : Variable) (named : token.name? = some name) :
      Derivation .secondary
  | enclosed (left : Token) (inner : Derivation .expression) (right : Token)
      (opens : left.kind = .opening) (closes : right.kind = .closing) : Derivation .secondary
  | secondary (inner : Derivation .secondary) : Derivation .primary
  | negation (token : Token) (inner : Derivation .secondary)
      (negates : token.kind = .negation) : Derivation .primary
  | primary (inner : Derivation .primary) : Derivation .term
  | tight (earlier : Derivation .term) (token : Token) (later : Derivation .primary)
      (connective : Connective) (joins : token.joins? .tight = some connective) :
      Derivation .term
  | term (inner : Derivation .term) : Derivation .expression
  | loose (earlier : Derivation .expression) (token : Token) (later : Derivation .term)
      (connective : Connective) (joins : token.joins? .loose = some connective) :
      Derivation .expression

namespace Derivation

def tokens {phrase : Phrase} : Derivation phrase → List Token
  | .letter token _ _ => [token]
  | .enclosed left inner right _ _ => left :: (inner.tokens ++ [right])
  | .secondary inner => inner.tokens
  | .negation token inner _ => token :: inner.tokens
  | .primary inner => inner.tokens
  | .tight earlier token later _ _ => earlier.tokens ++ token :: later.tokens
  | .term inner => inner.tokens
  | .loose earlier token later _ _ => earlier.tokens ++ token :: later.tokens

def formula {phrase : Phrase} : Derivation phrase → Formula
  | .letter _ name _ => .letter name
  | .enclosed _ inner _ _ _ => inner.formula
  | .secondary inner => inner.formula
  | .negation _ inner _ => .not inner.formula
  | .primary inner => inner.formula
  | .tight earlier _ later connective _ => .binary connective earlier.formula later.formula
  | .term inner => inner.formula
  | .loose earlier _ later connective _ => .binary connective earlier.formula later.formula

theorem derives {phrase : Phrase} (derivation : Derivation phrase) :
    Derives phrase derivation.tokens derivation.formula := by
  induction derivation with
  | letter token name named => exact .letter named
  | enclosed left inner right opens closes derived => exact .enclosed opens closes derived
  | secondary inner derived => exact .secondary derived
  | negation token inner negates derived => exact .negation negates derived
  | primary inner derived => exact .primary derived
  | tight earlier token later connective joins before after => exact .tight joins before after
  | term inner derived => exact .term derived
  | loose earlier token later connective joins before after => exact .loose joins before after

end Derivation

theorem exists_derivation {phrase : Phrase} {tokens : List Token} {formula : Formula}
    (derived : Derives phrase tokens formula) :
    ∃ derivation : Derivation phrase,
      derivation.tokens = tokens ∧ derivation.formula = formula := by
  induction derived with
  | letter named => exact ⟨.letter _ _ named, rfl, rfl⟩
  | enclosed opens closes _ inner =>
      obtain ⟨derivation, rfl, rfl⟩ := inner
      exact ⟨.enclosed _ derivation _ opens closes, rfl, rfl⟩
  | secondary _ inner =>
      obtain ⟨derivation, rfl, rfl⟩ := inner
      exact ⟨.secondary derivation, rfl, rfl⟩
  | negation negates _ inner =>
      obtain ⟨derivation, rfl, rfl⟩ := inner
      exact ⟨.negation _ derivation negates, rfl, rfl⟩
  | primary _ inner =>
      obtain ⟨derivation, rfl, rfl⟩ := inner
      exact ⟨.primary derivation, rfl, rfl⟩
  | tight joins _ _ earlier later =>
      obtain ⟨before, rfl, rfl⟩ := earlier
      obtain ⟨after, rfl, rfl⟩ := later
      exact ⟨.tight before _ after _ joins, rfl, rfl⟩
  | term _ inner =>
      obtain ⟨derivation, rfl, rfl⟩ := inner
      exact ⟨.term derivation, rfl, rfl⟩
  | loose joins _ _ earlier later =>
      obtain ⟨before, rfl, rfl⟩ := earlier
      obtain ⟨after, rfl, rfl⟩ := later
      exact ⟨.loose before _ after _ joins, rfl, rfl⟩

theorem derives_iff_exists_derivation (phrase : Phrase) (tokens : List Token) (formula : Formula) :
    Derives phrase tokens formula ↔
      ∃ derivation : Derivation phrase,
        derivation.tokens = tokens ∧ derivation.formula = formula := by
  constructor
  · exact exists_derivation
  · rintro ⟨derivation, rfl, rfl⟩
    exact derivation.derives

theorem operand_of_whole {strength : Strength} {tokens : List Token} {formula : Formula}
    (derived : Derives strength.whole tokens formula) :
    ∃ operand, (construction.read strength.operand tokens ()).outcome = .ok operand := by
  have read := read_of_derives derived [] (ends_nil _)
  rw [List.append_nil, construction.read_whole] at read
  match operand : construction.read strength.operand tokens () with
  | ⟨.ok value, rest, ()⟩ => exact ⟨value, rfl⟩
  | ⟨.error failure, rest, ()⟩ =>
      rw [operand, Interpretation.join_error] at read
      cases read

theorem operand_behind {strength : Strength} {token : Token} {connective : Connective}
    {before after : List Token} {left whole : Formula}
    (joins : token.joins? strength = some connective)
    (earlier : Derives strength.whole before left)
    (derived : Derives strength.whole (before ++ token :: after) whole) :
    ∃ operand, (construction.read strength.operand after ()).outcome = .ok operand := by
  have read := read_of_derives derived [] (ends_nil _)
  rw [List.append_nil, read_in_front_of_joins joins earlier,
    construction.join_connective joins] at read
  match operand : construction.read strength.operand after () with
  | ⟨.ok value, rest, ()⟩ => exact ⟨value, rfl⟩
  | ⟨.error failure, rest, ()⟩ =>
      rw [operand, Reading.apply, Interpretation.join_error] at read
      cases read

theorem ends_operand_append {strength : Strength} {token : Token} {connective : Connective}
    {rest : List Token} (after : List Token) (joins : token.joins? strength = some connective)
    (ends : Ends strength.operand rest) : Ends strength.operand (rest ++ token :: after) := by
  cases rest with
  | nil => exact ends_operand_of_joins after joins
  | cons first rest =>
      cases strength with
      | tight => trivial
      | loose => exact (stops_cons .tight first _).2 ((stops_cons .tight first rest).1 ends)

/-- An operand does not reach beyond a connective in front of which one can be read. -/
theorem not_operand_of_joins {strength : Strength} {token : Token} {connective : Connective}
    {before : List Token} {first : Formula}
    (read : (construction.read strength.operand before ()).outcome = .ok first)
    (joins : token.joins? strength = some connective) (after : List Token) (formula : Formula) :
    ¬ Derives strength.operand (before ++ token :: after) formula := by
  intro derived
  obtain ⟨taken, split, takenDerived⟩ := builds_read strength.operand before first read
  have ends := ends_operand_append after joins (ends_of_read read)
  -- read twice: up to the connective, and up to the end
  have short := read_of_derives takenDerived _ ends
  rw [← List.append_assoc, ← split] at short
  have long := read_of_derives derived [] (ends_nil _)
  rw [List.append_nil, short] at long
  have rests := congrArg Reading.rest long
  simp at rests

theorem joined_unique (strength : Strength) {token other : Token}
    {connective otherConnective : Connective} {earlier otherEarlier : Derivation strength.whole}
    {later otherLater : Derivation strength.operand}
    (joins : token.joins? strength = some connective)
    (otherJoins : other.joins? strength = some otherConnective)
    (same : earlier.tokens ++ token :: later.tokens =
      otherEarlier.tokens ++ other :: otherLater.tokens) :
    earlier.tokens = otherEarlier.tokens ∧ token = other ∧ connective = otherConnective ∧
      later.tokens = otherLater.tokens := by
  have before := earlier.derives
  have after := later.derives
  have otherBefore := otherEarlier.derives
  have otherAfter := otherLater.derives
  rcases List.append_eq_append_iff.1 same with
    ⟨middle, longer, shorter⟩ | ⟨middle, longer, shorter⟩
  · cases middle with
    | nil =>
        obtain ⟨tokens, afters⟩ := List.cons.inj shorter
        subst tokens
        have connectives := Option.some.inj (joins.symm.trans otherJoins)
        exact ⟨by simpa using longer.symm, rfl, connectives, afters⟩
    | cons first middle =>
        -- the other operand would begin inside this one
        obtain ⟨tokens, afters⟩ := List.cons.inj shorter
        subst tokens
        rw [longer] at otherBefore
        rw [afters] at after
        obtain ⟨operand, read⟩ := operand_behind joins before otherBefore
        exact absurd after (not_operand_of_joins read otherJoins _ _)
  · cases middle with
    | nil =>
        obtain ⟨tokens, afters⟩ := List.cons.inj shorter
        subst tokens
        have connectives := Option.some.inj (joins.symm.trans otherJoins)
        exact ⟨by simpa using longer, rfl, connectives, afters.symm⟩
    | cons first middle =>
        obtain ⟨tokens, afters⟩ := List.cons.inj shorter
        subst tokens
        rw [longer] at before
        rw [afters] at otherAfter
        obtain ⟨operand, read⟩ := operand_behind otherJoins otherBefore before
        exact absurd otherAfter (not_operand_of_joins read joins _ _)

theorem operand_tokens_ne (strength : Strength) (operand : Derivation strength.operand)
    (earlier : Derivation strength.whole) {token : Token} {connective : Connective}
    (joins : token.joins? strength = some connective) (after : List Token) :
    operand.tokens ≠ earlier.tokens ++ token :: after := by
  intro same
  have derived := operand.derives
  rw [same] at derived
  obtain ⟨first, read⟩ := operand_of_whole earlier.derives
  exact not_operand_of_joins read joins after operand.formula derived

theorem secondary_tokens_ne (derivation : Derivation .secondary) (token : Token)
    (rest : List Token) (negates : token.kind = .negation) : derivation.tokens ≠ token :: rest := by
  intro same
  obtain ⟨first, later, split, notNegation⟩ := secondary_first derivation.derives
  rw [same] at split
  cases split
  exact notNegation negates

theorem derivation_unique {phrase : Phrase} (first second : Derivation phrase)
    (same : first.tokens = second.tokens) : first = second := by
  induction first with
  | letter token name named =>
      cases second with
      | letter other otherName otherNamed =>
          cases same
          have names : name = otherName := Option.some.inj (named.symm.trans otherNamed)
          subst names
          rfl
      | enclosed left inner right opens closes =>
          have lengths := congrArg List.length same
          simp [Derivation.tokens] at lengths
  | enclosed left inner right opens closes unique =>
      cases second with
      | letter other name named =>
          have lengths := congrArg List.length same
          simp [Derivation.tokens] at lengths
      | enclosed otherLeft otherInner otherRight otherOpens otherCloses =>
          obtain ⟨lefts, insides⟩ := List.cons.inj same
          obtain ⟨inners, rights⟩ := List.append_inj' insides rfl
          cases lefts
          cases rights
          rw [unique otherInner inners]
  | secondary inner unique =>
      cases second with
      | secondary other => rw [unique other same]
      | negation token other negates => exact absurd same (secondary_tokens_ne inner _ _ negates)
  | negation token inner negates unique =>
      cases second with
      | secondary other => exact absurd same.symm (secondary_tokens_ne other _ _ negates)
      | negation otherToken other otherNegates =>
          obtain ⟨tokens, inners⟩ := List.cons.inj same
          cases tokens
          rw [unique other inners]
  | primary inner unique =>
      cases second with
      | primary other => rw [unique other same]
      | tight earlier token later connective joins =>
          exact absurd same (operand_tokens_ne .tight inner earlier joins later.tokens)
  | tight earlier token later connective joins earlierUnique laterUnique =>
      cases second with
      | primary other =>
          exact absurd same.symm (operand_tokens_ne .tight other earlier joins later.tokens)
      | tight otherEarlier other otherLater otherConnective otherJoins =>
          obtain ⟨befores, tokens, connectives, afters⟩ := joined_unique .tight joins otherJoins same
          subst tokens connectives
          rw [earlierUnique otherEarlier befores, laterUnique otherLater afters]
  | term inner unique =>
      cases second with
      | term other => rw [unique other same]
      | loose earlier token later connective joins =>
          exact absurd same (operand_tokens_ne .loose inner earlier joins later.tokens)
  | loose earlier token later connective joins earlierUnique laterUnique =>
      cases second with
      | term other =>
          exact absurd same.symm (operand_tokens_ne .loose other earlier joins later.tokens)
      | loose otherEarlier other otherLater otherConnective otherJoins =>
          obtain ⟨befores, tokens, connectives, afters⟩ := joined_unique .loose joins otherJoins same
          subst tokens connectives
          rw [earlierUnique otherEarlier befores, laterUnique otherLater afters]

/-- Reading all of the tokens finds the tree of their derivation, and finds one whenever there is
a derivation. No tokens have two derivations. -/
theorem of_tokens_reads_the_derivation (tokens : List Token) (formula : Formula) :
    (Formula.ofTokens tokens false = .ok formula ↔ Derives .expression tokens formula) ∧
      (Derives .expression tokens formula ↔
        ∃ derivation : Derivation .expression,
          derivation.tokens = tokens ∧ derivation.formula = formula) ∧
      ∀ first second : Derivation .expression,
        first.tokens = tokens → second.tokens = tokens → first = second := by
  refine ⟨of_tokens_iff_derives tokens formula, derives_iff_exists_derivation _ _ _, ?_⟩
  intro first second firstTokens secondTokens
  exact derivation_unique first second (firstTokens.trans secondTokens.symm)

end Propositional
