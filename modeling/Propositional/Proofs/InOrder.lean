import Propositional.Proofs.Decomposition
import Propositional.Proofs.Display

/-!
Tokens without their parentheses. Whatever is derived, what is left of its tokens is the formula read
in order: the left operand of a connective, the connective and the right operand. So a text and the
display of the formula that it writes differ in their parentheses and blanks only.
-/

namespace Propositional

set_option autoImplicit false

namespace Token

def isParenthesis (token : Token) : Bool := token.kind = .opening || token.kind = .closing

/-- A token that is written as its kind demands. -/
def IsSpelled (token : Token) : Prop := Spells token.kind token.literal.toList

end Token

/-- The kinds and literals of the tokens other than parentheses. -/
def bareMarks (tokens : List Token) : List (Kind × String) :=
  (tokens.filter fun token => !token.isParenthesis).map fun token => (token.kind, token.literal)

/-- The letters and connectives of a formula from the left to the right, as they are written. -/
def Formula.inOrder : Formula → List (Kind × String)
  | .letter name => [(.letter, name.toString)]
  | .not operand => (.negation, "~") :: operand.inOrder
  | .binary connective left right =>
      left.inOrder ++ (.joining connective, String.ofList connective.symbol) :: right.inOrder

theorem bare_marks_append (before after : List Token) :
    bareMarks (before ++ after) = bareMarks before ++ bareMarks after := by
  rw [bareMarks, List.filter_append, List.map_append]
  rfl

theorem bare_marks_parenthesis {token : Token} (tokens : List Token)
    (parenthesis : token.kind = .opening ∨ token.kind = .closing) :
    bareMarks (token :: tokens) = bareMarks tokens := by
  have dropped : token.isParenthesis = true := by simpa [Token.isParenthesis] using parenthesis
  simp only [bareMarks, List.filter_cons, dropped, Bool.not_true, Bool.false_eq_true, if_false]

theorem bare_marks_other {token : Token} {kind : Kind} (tokens : List Token)
    (same : token.kind = kind) (other : kind ≠ .opening ∧ kind ≠ .closing) :
    bareMarks (token :: tokens) = (kind, token.literal) :: bareMarks tokens := by
  have kept : token.isParenthesis = false := by simpa [Token.isParenthesis, same] using other
  simp only [bareMarks, List.filter_cons, kept, Bool.not_false, if_true, List.map_cons, same]

section

variable {token : Token} (spelled : token.IsSpelled)

include spelled

theorem literal_of_name {name : Variable} (named : token.name? = some name) :
    token.literal = name.toString := by
  have kind := Token.kind_of_name named
  unfold Token.IsSpelled at spelled
  rw [Token.name?, kind] at named
  rw [kind] at spelled
  apply String.toList_injective
  generalize token.literal.toList = spelling at spelled named
  cases spelled with
  | letter least greatest other =>
      cases named
      exact (String.toList_singleton name).symm

theorem literal_of_negation (negates : token.kind = .negation) : token.literal = "~" := by
  unfold Token.IsSpelled at spelled
  rw [negates] at spelled
  apply String.toList_injective
  generalize token.literal.toList = spelling at spelled
  cases spelled
  rfl

theorem literal_of_joins {strength : Strength} {connective : Connective}
    (joins : token.joins? strength = some connective) :
    token.literal = String.ofList connective.symbol := by
  have kind := ((Token.joins_eq_some_iff strength token connective).1 joins).1
  unfold Token.IsSpelled at spelled
  rw [kind] at spelled
  apply String.toList_injective
  rw [String.toList_ofList]
  generalize token.literal.toList = spelling at spelled
  cases spelled <;> rfl

end

theorem is_spelled_of_tokenize {text : String} {tokens : List Token}
    (cut : tokenize text = .ok tokens) : ∀ token ∈ tokens, token.IsSpelled := by
  intro token member
  obtain ⟨lexeme, position, valid, rfl⟩ := tokens_from_lexemes cut token member
  have spells := (is_lexeme_iff_spells lexeme).1 valid
  simpa [Token.IsSpelled, Lexeme.toToken, Lexeme.literal] using spells

theorem bare_marks_joined {strength : Strength} {token : Token} {connective : Connective}
    {before after : List Token} {left right : Formula}
    (joins : token.joins? strength = some connective)
    (earlier : (∀ other ∈ before, other.IsSpelled) → bareMarks before = left.inOrder)
    (later : (∀ other ∈ after, other.IsSpelled) → bareMarks after = right.inOrder)
    (spelled : ∀ other ∈ before ++ token :: after, other.IsSpelled) :
    bareMarks (before ++ token :: after) = (Formula.binary connective left right).inOrder := by
  obtain ⟨beforeSpelled, restSpelled⟩ := List.forall_mem_append.1 spelled
  obtain ⟨tokenSpelled, afterSpelled⟩ := List.forall_mem_cons.1 restSpelled
  have kind := ((Token.joins_eq_some_iff strength token connective).1 joins).1
  rw [bare_marks_append, bare_marks_other after kind (by simp), earlier beforeSpelled,
    later afterSpelled, literal_of_joins tokenSpelled joins]
  rfl

theorem bare_marks_of_derives {phrase : Phrase} {tokens : List Token} {formula : Formula}
    (derived : Derives phrase tokens formula) (spelled : ∀ token ∈ tokens, token.IsSpelled) :
    bareMarks tokens = formula.inOrder := by
  induction derived with
  | @letter token name named =>
      have literal := literal_of_name (spelled token (by simp)) named
      rw [bare_marks_other [] (Token.kind_of_name named) (by simp), literal]
      rfl
  | @enclosed left right tokens formula opens closes inner induction =>
      have innerSpelled : ∀ token ∈ tokens, token.IsSpelled := by
        intro token member
        exact spelled token (by simp [member])
      rw [bare_marks_parenthesis _ (.inl opens), bare_marks_append,
        bare_marks_parenthesis [] (.inr closes), induction innerSpelled]
      exact List.append_nil _
  | secondary inner induction => exact induction spelled
  | @negation token tokens formula negates inner induction =>
      obtain ⟨tokenSpelled, innerSpelled⟩ := List.forall_mem_cons.1 spelled
      rw [bare_marks_other tokens negates (by simp), literal_of_negation tokenSpelled negates,
        induction innerSpelled]
      rfl
  | primary inner induction => exact induction spelled
  | tight joins _ _ earlier later => exact bare_marks_joined joins earlier later spelled
  | term inner induction => exact induction spelled
  | loose joins _ _ earlier later => exact bare_marks_joined joins earlier later spelled

theorem bare_marks_of_text {text : String} {tokens : List Token} {formula : Formula}
    (cut : tokenize text = .ok tokens) (read : Formula.ofTokens tokens false = .ok formula) :
    bareMarks tokens = formula.inOrder :=
  bare_marks_of_derives ((of_tokens_iff_derives tokens formula).1 read)
    (is_spelled_of_tokenize cut)

/-- Without their parentheses, the tokens of a text and the tokens of the display of its formula are
of the same kinds and literals in the same order, which is that of the formula. -/
theorem display_keeps_all_but_parentheses (text : String) (tokens : List Token)
    (formula : Formula) (cut : tokenize text = .ok tokens)
    (read : Formula.ofTokens tokens false = .ok formula) :
    ∃ displayed, tokenize formula.display = .ok displayed ∧
      bareMarks tokens = bareMarks displayed ∧ bareMarks displayed = formula.inOrder := by
  have textRead : Formula.ofText text false = .ok formula := by
    rw [Formula.of_text_of_tokenize cut, read]
  have displayRead := Formula.of_text_display formula (Formula.is_variable_of_text textRead)
  obtain ⟨displayed, displayCut, displayedRead⟩ :=
    (Formula.of_text_eq_ok_iff formula.display false formula).1 displayRead
  have displayedMarks := bare_marks_of_text displayCut displayedRead
  refine ⟨displayed, displayCut, ?_, displayedMarks⟩
  rw [displayedMarks, bare_marks_of_text cut read]

theorem display_keeps_all_but_parentheses_chain :
    let tokens : List Token := [⟨.letter, "p", 0⟩, ⟨.joining .and, "^", 2⟩, ⟨.opening, "(", 4⟩,
      ⟨.opening, "(", 5⟩, ⟨.letter, "q", 6⟩, ⟨.closing, ")", 7⟩, ⟨.closing, ")", 8⟩,
      ⟨.joining .or, "v", 10⟩, ⟨.letter, "r", 12⟩]
    let formula : Formula := .binary .or (.binary .and (.letter 'p') (.letter 'q')) (.letter 'r')
    tokenize "p ^ ((q)) v r" = .ok tokens ∧ Formula.ofTokens tokens false = .ok formula ∧
      ∃ displayed, tokenize formula.display = .ok displayed ∧
        bareMarks tokens = bareMarks displayed ∧ bareMarks displayed = formula.inOrder := by
  intro tokens formula
  have cut : tokenize "p ^ ((q)) v r" = .ok tokens := by with_unfolding_all rfl
  have read : Formula.ofTokens tokens false = .ok formula := by with_unfolding_all rfl
  exact ⟨cut, read, display_keeps_all_but_parentheses _ tokens formula cut read⟩

end Propositional
