import Propositional.Proofs.ReadingInduction

/-!
Reading to a tree against the grammar. What is read is derivable (`builds_read`), and what is
derivable is read whatever follows it, as long as it does not go on (`read_of_derives`). The
phrases on the left of a connective are derived from the left but read in a loop, so the second
part is stated for them with the loop still to be run (`Completes`).
-/

namespace Propositional

set_option autoImplicit false

open Interpretation (construction)

namespace Derives

theorem of_operand {strength : Strength} {tokens : List Token} {formula : Formula}
    (inner : Derives strength.operand tokens formula) : Derives strength.whole tokens formula := by
  cases strength with
  | tight => exact .primary inner
  | loose => exact .term inner

theorem operand_of_secondary (strength : Strength) {tokens : List Token} {formula : Formula}
    (inner : Derives .secondary tokens formula) : Derives strength.operand tokens formula := by
  cases strength with
  | tight => exact .secondary inner
  | loose => exact .primary (.secondary inner)

theorem of_whole (strength : Strength) {tokens : List Token} {formula : Formula}
    (derived : Derives strength.whole tokens formula) : Derives .expression tokens formula := by
  cases strength with
  | tight => exact .term derived
  | loose => exact derived

theorem joined {strength : Strength} {token : Token} {connective : Connective}
    {before after : List Token} {left right : Formula}
    (joins : token.joins? strength = some connective)
    (earlier : Derives strength.whole before left)
    (later : Derives strength.operand after right) :
    Derives strength.whole (before ++ token :: after) (.binary connective left right) := by
  cases strength with
  | tight => exact .tight joins earlier later
  | loose => exact .loose joins earlier later

end Derives

/-- What a reading has built is the tree of the tokens which it has taken. -/
def Builds (phrase : Phrase) (tokens : List Token) (reading : Reading Unit Formula) : Prop :=
  ∀ formula, reading.outcome = .ok formula →
    ∃ taken, tokens = taken ++ reading.rest ∧ Derives phrase taken formula

theorem builds_refused (phrase : Phrase) (tokens : List Token) :
    Builds phrase tokens (.refused tokens ()) := by
  intro formula succeeded
  cases tokens <;> cases succeeded

theorem builds_close (token : Token) (rest : List Token) (inner : Reading Unit Formula)
    (opens : token.kind = .opening) (built : Builds .expression rest inner) :
    Builds .secondary (token :: rest) (inner.close token.offset) := by
  intro formula succeeded
  obtain ⟨closing, closes, innerSucceeded, innerRest⟩ := Reading.close_succeeded succeeded
  obtain ⟨taken, split, derived⟩ := built formula innerSucceeded
  refine ⟨token :: (taken ++ [closing]), ?_, .enclosed opens closes derived⟩
  rw [split, innerRest]
  simp

theorem builds_operand {strength : Strength} {tokens : List Token} {reading : Reading Unit Formula}
    (built : Builds strength.operand tokens reading) : Builds strength.whole tokens reading := by
  intro formula succeeded
  obtain ⟨taken, split, derived⟩ := built formula succeeded
  exact ⟨taken, split, derived.of_operand⟩

theorem builds_joined {strength : Strength} {token : Token} {connective : Connective}
    {tokens rest : List Token} {left : Formula} {operand : Reading Unit Formula}
    (joins : token.joins? strength = some connective)
    (earlier : Builds strength.whole tokens ⟨.ok left, token :: rest, ()⟩)
    (later : Builds strength.operand rest operand) :
    Builds strength.whole tokens (operand.apply (construction.binary connective left)) := by
  intro formula succeeded
  rw [Reading.rest_apply]
  obtain ⟨right, rightSucceeded, same⟩ := Reading.apply_succeeded succeeded
  obtain ⟨before, splitBefore, derivedBefore⟩ := earlier left rfl
  obtain ⟨after, splitAfter, derivedAfter⟩ := later right rightSucceeded
  refine ⟨before ++ token :: after, ?_, ?_⟩
  · simp only [splitBefore, List.append_assoc, List.cons_append]
    rw [← splitAfter]
  · rw [same]
    exact derivedBefore.joined joins derivedAfter

theorem builds_join (strength : Strength) (tokens : List Token) (left : Reading Unit Formula)
    (within : left.rest <:+ tokens) (built : Builds strength.whole tokens left)
    (operands : ∀ rest : List Token, rest.length < tokens.length →
      Builds strength.operand rest (construction.read strength.operand rest ())) :
    Builds strength.whole tokens (construction.join strength left) := by
  apply construction.join_invariant strength ?_ left within built
  intro value token rest state connective inside joins earlier
  have shorter : rest.length < tokens.length := by
    have bound := inside.length_le
    simp only [List.length_cons] at bound
    omega
  exact builds_joined joins earlier (operands rest shorter)

theorem builds_read (phrase : Phrase) (tokens : List Token) :
    Builds phrase tokens (construction.read phrase tokens ()) := by
  induction phrase, tokens using reading_induction with
  | nothing phrase =>
      rw [construction.read_nothing]
      exact builds_refused phrase []
  | secondary token rest expression =>
      rw [construction.read_secondary]
      by_cases opens : token.kind = .opening
      · rw [if_pos opens]
        exact builds_close token rest _ opens expression
      · rw [if_neg opens]
        cases named : token.name? with
        | none => exact builds_refused .secondary (token :: rest)
        | some name =>
            intro formula succeeded
            cases succeeded
            exact ⟨[token], rfl, .letter named⟩
  | primary token rest operand plain =>
      rw [construction.read_primary]
      by_cases negates : token.kind = .negation
      · rw [if_pos negates]
        intro formula succeeded
        rw [Reading.rest_apply]
        obtain ⟨inner, innerSucceeded, same⟩ := Reading.apply_succeeded succeeded
        obtain ⟨taken, split, derived⟩ := operand inner innerSucceeded
        rw [same]
        exact ⟨token :: taken, congrArg (token :: ·) split, .negation negates derived⟩
      · rw [if_neg negates]
        intro formula succeeded
        obtain ⟨taken, split, derived⟩ := plain formula succeeded
        exact ⟨taken, split, .secondary derived⟩
  | whole strength tokens operand later =>
      rw [construction.read_whole]
      exact builds_join strength tokens _ (construction.rest_read_suffix _ _ _)
        (builds_operand operand) later

/-- The rule for the loop, with what stands in front of each connective built by then. -/
theorem join_invariant_of_builds (strength : Strength) {tokens : List Token}
    {invariant : Reading Unit Formula → Prop}
    (step : ∀ value token rest connective, token.joins? strength = some connective →
      rest.length < tokens.length →
      Builds strength.whole tokens ⟨.ok value, token :: rest, ()⟩ →
      invariant ((construction.read strength.operand rest ()).apply
        (construction.binary connective value)))
    (left : Reading Unit Formula) (within : left.rest <:+ tokens)
    (built : Builds strength.whole tokens left) (holds : invariant left) :
    invariant (construction.join strength left) := by
  induction left using construction.join_induction strength with
  | complete left complete =>
      rw [construction.join_complete strength left complete]
      exact holds
  | step value token rest state connective joins induction =>
      have shorter : rest.length < tokens.length := by
        have bound := within.length_le
        simp only [List.length_cons] at bound
        omega
      rw [construction.join_connective joins]
      apply induction
      · rw [Reading.rest_apply]
        exact (construction.rest_read_suffix strength.operand rest ()).trans
          ((List.suffix_cons token rest).trans within)
      · exact builds_joined joins built (builds_read strength.operand rest)
      · exact step value token rest connective joins shorter built

/-- In front of any tokens, the given ones are read to their tree. A phrase on the left of a
connective is still to be gone on with, and the one of a loose connective needs tokens behind it
which its last term does not go on with. -/
def Completes : Phrase → List Token → Formula → Prop
  | .secondary, tokens, formula =>
      ∀ rest, construction.read .secondary (tokens ++ rest) () = ⟨.ok formula, rest, ()⟩
  | .primary, tokens, formula =>
      ∀ rest, construction.read .primary (tokens ++ rest) () = ⟨.ok formula, rest, ()⟩
  | .term, tokens, formula =>
      ∀ rest, construction.read .term (tokens ++ rest) () =
        construction.join .tight ⟨.ok formula, rest, ()⟩
  | .expression, tokens, formula =>
      ∀ rest, Stops .tight rest → construction.read .expression (tokens ++ rest) () =
        construction.join .loose ⟨.ok formula, rest, ()⟩

theorem secondary_first {tokens : List Token} {formula : Formula}
    (derived : Derives .secondary tokens formula) :
    ∃ token rest, tokens = token :: rest ∧ token.kind ≠ .negation := by
  cases derived with
  | @letter token name named =>
      refine ⟨token, [], rfl, ?_⟩
      rw [Token.kind_of_name named]
      decide
  | @enclosed left right inside _ opens closes inner =>
      refine ⟨left, inside ++ [right], rfl, ?_⟩
      rw [opens]
      decide

theorem completes_letter {token : Token} {name : Variable} (named : token.name? = some name) :
    Completes .secondary [token] (.letter name) := by
  intro rest
  have notOpening : token.kind ≠ .opening := by
    rw [Token.kind_of_name named]
    decide
  rw [List.singleton_append, construction.read_secondary, if_neg notOpening, named]
  rfl

theorem completes_enclosed {left right : Token} {tokens : List Token} {formula : Formula}
    (opens : left.kind = .opening) (closes : right.kind = .closing)
    (inner : Completes .expression tokens formula) :
    Completes .secondary (left :: (tokens ++ [right])) formula := by
  intro rest
  have stops (strength : Strength) : Stops strength (right :: rest) := by
    rw [stops_cons]
    apply Token.joins_of_kind
    intro connective
    rw [closes]
    exact Kind.noConfusion
  have read := inner (right :: rest) (stops .tight)
  rw [construction.join_stops _ _ _ _ (stops .loose)] at read
  rw [List.cons_append, construction.read_secondary, if_pos opens, List.append_assoc,
    List.singleton_append, read, Reading.close, if_pos closes]

theorem completes_secondary {tokens : List Token} {formula : Formula}
    (derived : Derives .secondary tokens formula) (inner : Completes .secondary tokens formula) :
    Completes .primary tokens formula := by
  intro rest
  obtain ⟨token, later, rfl, notNegation⟩ := secondary_first derived
  have read := inner rest
  rw [List.cons_append] at read ⊢
  rw [construction.read_primary, if_neg notNegation, read]

theorem completes_negation {token : Token} {tokens : List Token} {formula : Formula}
    (negates : token.kind = .negation) (inner : Completes .secondary tokens formula) :
    Completes .primary (token :: tokens) (.not formula) := by
  intro rest
  rw [List.cons_append, construction.read_primary, if_pos negates, inner rest]
  rfl

theorem completes_tight {token : Token} {connective : Connective} {before after : List Token}
    {left right : Formula} (joins : token.joins? .tight = some connective)
    (earlier : Completes .term before left) (later : Completes .primary after right) :
    Completes .term (before ++ token :: after) (.binary connective left right) := by
  intro rest
  have operand : construction.read Strength.tight.operand (after ++ rest) () =
      ⟨.ok right, rest, ()⟩ := later rest
  rw [List.append_assoc, List.cons_append, earlier, construction.join_connective joins, operand]
  rfl

theorem completes_loose {token : Token} {connective : Connective} {before after : List Token}
    {left right : Formula} (joins : token.joins? .loose = some connective)
    (earlier : Completes .expression before left) (later : Completes .term after right) :
    Completes .expression (before ++ token :: after) (.binary connective left right) := by
  intro rest stops
  have operand : construction.read Strength.loose.operand (after ++ rest) () =
      ⟨.ok right, rest, ()⟩ := (later rest).trans (construction.join_stops _ _ _ _ stops)
  have notTight : Stops .tight (token :: (after ++ rest)) :=
    stops_of_joins _ joins (by decide)
  rw [List.append_assoc, List.cons_append, earlier _ notTight,
    construction.join_connective joins, operand]
  rfl

theorem completes_of_derives {phrase : Phrase} {tokens : List Token} {formula : Formula}
    (derived : Derives phrase tokens formula) : Completes phrase tokens formula := by
  induction derived with
  | letter named => exact completes_letter named
  | enclosed opens closes _ inner => exact completes_enclosed opens closes inner
  | secondary derived inner => exact completes_secondary derived inner
  | negation negates _ inner => exact completes_negation negates inner
  | primary _ inner =>
      intro rest
      rw [construction.read_term, inner rest]
  | tight joins _ _ earlier later => exact completes_tight joins earlier later
  | term _ inner =>
      intro rest stops
      rw [construction.read_expression, inner rest, construction.join_stops _ _ _ _ stops]
  | loose joins _ _ earlier later => exact completes_loose joins earlier later

/-- The tokens do not go on with anything that would be read as part of the phrase. -/
def Ends : Phrase → List Token → Prop
  | .secondary, _ => True
  | .primary, _ => True
  | .term, rest => Stops .tight rest
  | .expression, rest => Stops .tight rest ∧ Stops .loose rest

theorem ends_nil (phrase : Phrase) : Ends phrase [] := by
  cases phrase with
  | secondary => trivial
  | primary => trivial
  | term => exact stops_nil .tight
  | expression => exact ⟨stops_nil .tight, stops_nil .loose⟩

theorem read_of_derives {phrase : Phrase} {tokens : List Token} {formula : Formula}
    (derived : Derives phrase tokens formula) (rest : List Token) (ends : Ends phrase rest) :
    construction.read phrase (tokens ++ rest) () = ⟨.ok formula, rest, ()⟩ := by
  have completes := completes_of_derives derived
  cases phrase with
  | secondary => exact completes rest
  | primary => exact completes rest
  | term => exact (completes rest).trans (construction.join_stops _ _ _ _ ends)
  | expression => exact (completes rest ends.1).trans (construction.join_stops _ _ _ _ ends.2)

/-- Reading a phrase never stops in front of a token that it could go on with. -/
theorem ends_of_read {phrase : Phrase} {tokens : List Token} {formula : Formula}
    (read : (construction.read phrase tokens ()).outcome = .ok formula) :
    Ends phrase (construction.read phrase tokens ()).rest := by
  have term (tokens : List Token) :
      (construction.read .term tokens ()).IsComplete .tight := by
    rw [construction.read_term]
    exact construction.is_complete_join .tight _
  cases phrase with
  | secondary => trivial
  | primary => trivial
  | term => exact term tokens formula read
  | expression =>
      have loop : (construction.join .loose (construction.read .term tokens ())).IsComplete
          .tight := by
        apply construction.join_invariant .loose ?_ _ (construction.rest_read_suffix _ _ _)
          (term tokens)
        -- what the loop reads last is a term
        intro value token rest state connective _ _ _ joined succeeded
        obtain ⟨operand, operandSucceeded, _⟩ := Reading.apply_succeeded succeeded
        rw [Reading.rest_apply]
        exact term rest operand operandSucceeded
      rw [construction.read_expression] at read ⊢
      exact ⟨loop formula read, construction.is_complete_join .loose _ formula read⟩

theorem ends_operand_of_joins {strength : Strength} {token : Token} {connective : Connective}
    (rest : List Token) (joins : token.joins? strength = some connective) :
    Ends strength.operand (token :: rest) := by
  cases strength with
  | tight => trivial
  | loose => exact stops_of_joins rest joins (by decide)

theorem read_in_front_of_joins {strength : Strength} {token : Token} {connective : Connective}
    {before after : List Token} {left : Formula} (joins : token.joins? strength = some connective)
    (earlier : Derives strength.whole before left) :
    construction.read strength.whole (before ++ token :: after) () =
      construction.join strength ⟨.ok left, token :: after, ()⟩ := by
  have completes := completes_of_derives earlier
  cases strength with
  | tight => exact completes (token :: after)
  | loose => exact completes (token :: after) (ends_operand_of_joins after joins)

theorem of_tokens_eq_ok_iff (tokens : List Token) (allowTrailing : Bool) (formula : Formula) :
    Formula.ofTokens tokens allowTrailing = .ok formula ↔
      ∃ rest, construction.read .expression tokens () = ⟨.ok formula, rest, ()⟩ ∧
        (rest = [] ∨ allowTrailing = true) := by
  unfold Formula.ofTokens Interpretation.readAll
  match construction.read .expression tokens () with
  | ⟨.error failure, rest, ()⟩ => simp
  | ⟨.ok value, [], ()⟩ =>
      constructor
      · intro succeeded
        cases succeeded
        exact ⟨[], rfl, .inl rfl⟩
      · rintro ⟨rest, same, _⟩
        cases same
        rfl
  | ⟨.ok value, token :: rest, ()⟩ => cases allowTrailing <;> simp

theorem of_tokens_ok_of_strict {tokens : List Token} {formula : Formula}
    (strict : Formula.ofTokens tokens false = .ok formula) (allowTrailing : Bool) :
    Formula.ofTokens tokens allowTrailing = .ok formula := by
  obtain ⟨rest, read, complete⟩ := (of_tokens_eq_ok_iff tokens false formula).1 strict
  have empty : rest = [] := by simpa using complete
  exact (of_tokens_eq_ok_iff tokens allowTrailing formula).2 ⟨rest, read, .inl empty⟩

theorem of_tokens_iff_derives (tokens : List Token) (formula : Formula) :
    Formula.ofTokens tokens false = .ok formula ↔ Derives .expression tokens formula := by
  constructor
  · intro succeeded
    obtain ⟨rest, read, complete⟩ := (of_tokens_eq_ok_iff tokens false formula).1 succeeded
    have empty : rest = [] := by simpa using complete
    obtain ⟨taken, split, derived⟩ := builds_read .expression tokens formula (by rw [read])
    rw [read, empty, List.append_nil] at split
    rw [split]
    exact derived
  · intro derived
    have read := read_of_derives derived [] (ends_nil .expression)
    rw [List.append_nil] at read
    exact (of_tokens_eq_ok_iff tokens false formula).2 ⟨[], read, .inl rfl⟩

end Propositional
