import Propositional.Formula.Display
import Propositional.Source
import Propositional.Proofs.Evaluation
import Propositional.Proofs.Lexing

/-!
Reading what has been displayed. A formula is laid out in lexemes, whose tokens derive it: a
negation as a primary and any other formula as a secondary, so that it can stand wherever the
display puts it. This needs its letters to be variables, and conversely the letters of any formula
that was read from a text are.
-/

namespace Propositional

set_option autoImplicit false

namespace Formula

/-- The display of a formula as lexemes, the first of which stands behind a gap. -/
def layout : List Char → Formula → List Piece
  | gap, .letter name => [⟨gap, .ofLetter name⟩]
  | gap, .not (.not operand) =>
      ⟨gap, ⟨.negation, ['~']⟩⟩ :: ⟨[], ⟨.opening, ['(']⟩⟩ ::
        (layout [] (.not operand) ++ [⟨[], ⟨.closing, [')']⟩⟩])
  | gap, .not operand => ⟨gap, ⟨.negation, ['~']⟩⟩ :: layout [] operand
  | gap, .binary connective left right =>
      ⟨gap, ⟨.opening, ['(']⟩⟩ ::
        (layout [] left ++ ⟨[' '], .ofConnective connective⟩ :: layout [' '] right ++
          [⟨[], ⟨.closing, [')']⟩⟩])

def phrase : Formula → Phrase
  | .not _ => .primary
  | _ => .secondary

theorem characters_layout (gap : List Char) (formula : Formula) (suffix : List Char) :
    (formula.layout gap).flatMap Piece.characters ++ suffix = gap ++ formula.write suffix := by
  fun_induction layout gap formula generalizing suffix with
  | case1 gap name => simp [Piece.characters, Lexeme.ofLetter, write]
  | case2 gap operand induction =>
      have inside := induction (')' :: suffix)
      simp only [List.nil_append] at inside
      simp [Piece.characters, write, ← inside]
  | case3 gap operand simple induction =>
      have inside := induction suffix
      simp only [List.nil_append] at inside
      simp [Piece.characters, write.eq_3 _ _ simple, ← inside]
  | case4 gap connective left right leftInduction rightInduction =>
      have afterwards := rightInduction (')' :: suffix)
      have inside := leftInduction (' ' :: (connective.symbol ++ ' ' :: right.write (')' :: suffix)))
      simp only [List.nil_append, List.singleton_append] at inside afterwards
      simp only [Piece.characters, Lexeme.ofConnective, write, List.flatMap_cons,
        List.flatMap_append, List.flatMap_nil, List.append_assoc, List.cons_append,
        List.nil_append, List.append_nil]
      rw [afterwards, inside]

theorem layout_well_formed (gap : List Char) (formula : Formula)
    (blank : ∀ character ∈ gap, isBlank character)
    (valid : ∀ name ∈ formula.letters, isVariable name) :
    ∀ piece ∈ formula.layout gap, piece.IsWellFormed := by
  have fixed (gap : List Char) (blank : ∀ character ∈ gap, isBlank character) (lexeme : Lexeme)
      (member : lexeme ∈ fixedLexemes) : (⟨gap, lexeme⟩ : Piece).IsWellFormed :=
    ⟨blank, .inl member⟩
  fun_induction layout gap formula with
  | case1 gap name =>
      intro piece member
      rw [List.mem_singleton.1 member]
      exact ⟨blank, .inr ⟨name, valid name (by simp [letters]), rfl⟩⟩
  | case2 gap operand induction =>
      intro piece member
      simp only [List.mem_cons, List.mem_append, List.not_mem_nil, or_false] at member
      rcases member with rfl | rfl | member | rfl
      · exact fixed gap blank _ (by decide)
      · exact fixed [] (by simp) _ (by decide)
      · exact induction (by simp) valid piece member
      · exact fixed [] (by simp) _ (by decide)
  | case3 gap operand simple induction =>
      intro piece member
      rcases List.mem_cons.1 member with rfl | member
      · exact fixed gap blank _ (by decide)
      · exact induction (by simp) valid piece member
  | case4 gap connective left right leftInduction rightInduction =>
      have leftValid : ∀ name ∈ left.letters, isVariable name := by
        intro name member
        exact valid name (List.mem_append_left _ member)
      have rightValid : ∀ name ∈ right.letters, isVariable name := by
        intro name member
        exact valid name (List.mem_append_right _ member)
      intro piece member
      simp only [List.mem_cons, List.mem_append, List.not_mem_nil, or_false] at member
      rcases member with rfl | (member | rfl | member) | rfl
      · exact fixed gap blank _ (by decide)
      · exact leftInduction (by simp) leftValid piece member
      · exact ⟨blank_of_mem_space, is_lexeme_of_connective connective⟩
      · exact rightInduction blank_of_mem_space rightValid piece member
      · exact fixed [] (by simp) _ (by decide)

end Formula

namespace Piece

theorem to_tokens_append (offset : Nat) (before after : List Piece) :
    toTokens offset (before ++ after) =
      toTokens offset before ++
        toTokens (offset + byteLength (before.flatMap characters)) after := by
  induction before generalizing offset with
  | nil => rfl
  | cons piece before induction =>
      simp only [List.cons_append, toTokens, List.flatMap_cons, byte_length_append, induction,
        Nat.add_assoc]

end Piece

namespace Formula

theorem derives_primary {tokens : List Token} {formula : Formula}
    (derived : Derives formula.phrase tokens formula) : Derives .primary tokens formula := by
  cases formula with
  | letter name => exact .secondary derived
  | not operand => exact derived
  | binary connective left right => exact .secondary derived

theorem derives_whole {strength : Strength} {tokens : List Token} {formula : Formula}
    (derived : Derives formula.phrase tokens formula) :
    Derives strength.whole tokens formula ∧ Derives strength.operand tokens formula := by
  have primary := derives_primary derived
  cases strength with
  | tight => exact ⟨.primary primary, primary⟩
  | loose => exact ⟨.term (.primary primary), .primary primary⟩

theorem phrase_of_simple {formula : Formula} (simple : ∀ operand, formula = .not operand → False) :
    formula.phrase = .secondary := by
  cases formula with
  | letter name => rfl
  | not operand => exact (simple operand rfl).elim
  | binary connective left right => rfl

theorem derives_layout (formula : Formula) (gap : List Char) (offset : Nat) :
    Derives formula.phrase (Piece.toTokens offset (formula.layout gap)) formula := by
  fun_induction layout gap formula generalizing offset with
  | case1 gap name =>
      apply Derives.letter
      simp [Token.name?, Lexeme.toToken, Lexeme.ofLetter, Lexeme.literal]
  | case2 gap operand induction =>
      simp only [Piece.toTokens, Piece.to_tokens_append]
      apply Derives.negation rfl
      apply Derives.enclosed rfl rfl
      exact .term (.primary (induction _))
  | case3 gap operand simple induction =>
      rw [phrase_of_simple simple] at induction
      exact .negation rfl (induction _)
  | case4 gap connective left right leftInduction rightInduction =>
      simp only [Piece.toTokens, Piece.to_tokens_append]
      apply Derives.enclosed rfl rfl
      apply Derives.of_whole connective.strength
      apply Derives.joined
      · rw [Token.joins_eq_some_iff]
        exact ⟨rfl, rfl⟩
      · exact (derives_whole (leftInduction _)).1
      · exact (derives_whole (rightInduction _)).2

theorem tokenize_display (formula : Formula) (valid : ∀ name ∈ formula.letters, isVariable name) :
    tokenize formula.display = .ok (Piece.toTokens 0 (formula.layout [])) := by
  have wellFormed := layout_well_formed [] formula (by simp) valid
  have cut := tokens_from_lay_out 0 (formula.layout []) [] wellFormed (by simp)
  have text := characters_layout [] formula []
  rw [Piece.layOut, text, List.nil_append] at cut
  rw [tokenize, display, String.toList_ofList, cut]

theorem of_text_display (formula : Formula) (valid : ∀ name ∈ formula.letters, isVariable name) :
    Formula.ofText formula.display false = .ok formula := by
  have derived := derives_layout formula [] 0
  have expression := (derives_whole derived).1.of_whole .tight
  have read := (of_tokens_iff_derives _ formula).2 expression
  rw [ofText, tokenize_display formula valid]
  exact read

theorem is_variable_of_text {text : String} {allowTrailing : Bool} {formula : Formula}
    (read : Formula.ofText text allowTrailing = .ok formula) :
    ∀ name ∈ formula.letters, isVariable name := by
  obtain ⟨tokens, cut, tokensRead⟩ := (of_text_eq_ok_iff text allowTrailing formula).1 read
  intro name member
  rw [← letters_taken_of_tree tokensRead] at member
  apply is_variable_of_tokenize cut
  have split := tokens_taken_append tokens
  rw [← split, List.filterMap_append]
  exact List.mem_append_left _ member

/-- A formula is read back from its display exactly when its letters are variables; so formulas
over variables are told apart by their displays. -/
theorem of_text_display_iff_variables (formula : Formula) :
    (Formula.ofText formula.display false = .ok formula ↔
      ∀ name ∈ formula.support, isVariable name) ∧
    ∀ other : Formula, (∀ name ∈ formula.support, isVariable name) →
      (∀ name ∈ other.support, isVariable name) → formula.display = other.display →
      formula = other := by
  have readsBack (formula : Formula) (valid : ∀ name ∈ formula.support, isVariable name) :
      Formula.ofText formula.display false = .ok formula := by
    apply of_text_display
    intro name member
    exact valid name ((mem_support formula name).2 member)
  constructor
  · constructor
    · intro read name member
      exact is_variable_of_text read name ((mem_support formula name).1 member)
    · exact readsBack formula
  · intro other valid otherValid same
    have first := readsBack formula valid
    rw [same, readsBack other otherValid] at first
    cases first
    rfl

end Formula

end Propositional
