import Propositional.Token.Layout

/-!
The lexer step by step, and what the tokens of a text can be. Each of them is a lexeme of the
language at some position, so that a token which names a variable names one that may be declared.
-/

namespace Propositional

set_option autoImplicit false

theorem is_lexeme_of_first_lexeme {text : List Char} {lexeme : Lexeme}
    (found : firstLexeme? text = some lexeme) : IsLexeme lexeme := by
  unfold firstLexeme? at found
  split at found
  next fixed same =>
    cases found
    exact .inl (List.mem_of_find?_eq_some same)
  next absent =>
    match text with
    | [] => cases found
    | character :: rest =>
        by_cases letter : isLetter character
        · simp only [if_pos letter] at found
          cases found
          have notReserved : character ≠ reservedLetter := by
            rintro rfl
            have tried := List.find?_eq_none.1 absent (.ofConnective .or) (by decide)
            exact tried rfl
          refine .inr ⟨character, ?_, rfl⟩
          simp only [isVariable, letter, Bool.true_and, bne_iff_ne]
          exact notReserved
        · simp only [if_neg letter] at found
          cases found

theorem first_lexeme_append {text : List Char} {lexeme : Lexeme}
    (found : firstLexeme? text = some lexeme) :
    lexeme.spelling ++ text.drop lexeme.spelling.length = text := by
  have starts : lexeme.spelling <+: text := by
    unfold firstLexeme? at found
    split at found
    next fixed same =>
      cases found
      have tried : lexeme.spelling.isPrefixOf text = true :=
        List.find?_some (p := fun lexeme : Lexeme => lexeme.spelling.isPrefixOf text) same
      exact List.isPrefixOf_iff_prefix.1 tried
    next absent =>
      split at found
      next => cases found
      next character rest =>
        split at found
        next =>
          cases found
          exact List.prefix_append [character] rest
        next => cases found
  obtain ⟨rest, rfl⟩ := starts
  rw [List.drop_left]

theorem tokens_from_refused {character : Char} {rest : List Char} (offset : Nat)
    (notBlank : isBlank character = false) (absent : firstLexeme? (character :: rest) = none) :
    tokensFrom offset (character :: rest) = .error (.unrecognised character offset) := by
  rw [tokensFrom, if_neg (by simp [notBlank])]
  split
  next => rfl
  next lexeme found =>
    rw [absent] at found
    cases found

theorem tokens_from_blank {character : Char} (offset : Nat) (rest : List Char)
    (blank : isBlank character) :
    tokensFrom offset (character :: rest) = tokensFrom (offset + character.utf8Size) rest := by
  rw [tokensFrom, if_pos blank]

theorem tokens_from_lexeme_eq_ok {offset : Nat} {lexeme : Lexeme} {rest : List Char}
    {tokens : List Token} (valid : IsLexeme lexeme)
    (cut : tokensFrom offset (lexeme.spelling ++ rest) = .ok tokens) :
    ∃ others, tokensFrom (offset + byteLength lexeme.spelling) rest = .ok others ∧
      tokens = lexeme.toToken offset :: others := by
  rw [tokens_from_lexeme offset lexeme valid] at cut
  cases later : tokensFrom (offset + byteLength lexeme.spelling) rest with
  | error failure =>
      rw [later] at cut
      cases cut
  | ok others =>
      rw [later] at cut
      cases cut
      exact ⟨others, rfl, rfl⟩

/-- The lexer goes through a text in steps: it passes a blank, or takes a lexeme, or gives up. What
each of the steps hands on, from what is left to the whole, is true of every text. -/
theorem text_induction {motive : List Char → Prop} (nothing : motive [])
    (blank : ∀ character rest, isBlank character → motive rest → motive (character :: rest))
    (refused : ∀ character rest, isBlank character = false →
      firstLexeme? (character :: rest) = none → motive (character :: rest))
    (lexeme : ∀ lexeme rest, IsLexeme lexeme → motive rest → motive (lexeme.spelling ++ rest))
    (text : List Char) : motive text := by
  -- the positions that the lexer counts play no part
  have start : Nat := 0
  fun_induction tokensFrom start text with
  | case1 offset => exact nothing
  | case2 offset character rest isBlank induction => exact blank character rest isBlank induction
  | case3 offset character rest notBlank absent =>
      exact refused character rest (by simpa using notBlank) absent
  | case4 offset character rest notBlank taken found induction =>
      rw [← first_lexeme_append found]
      exact lexeme taken _ (is_lexeme_of_first_lexeme found) induction

theorem tokens_from_lexemes {offset : Nat} {text : List Char} {tokens : List Token}
    (cut : tokensFrom offset text = .ok tokens) :
    ∀ token ∈ tokens, ∃ lexeme position, IsLexeme lexeme ∧ token = lexeme.toToken position := by
  induction text using text_induction generalizing offset tokens with
  | nothing =>
      rw [tokensFrom] at cut
      cases cut
      simp
  | blank character rest blank induction =>
      rw [tokens_from_blank offset rest blank] at cut
      exact induction cut
  | refused character rest notBlank absent =>
      rw [tokens_from_refused offset notBlank absent] at cut
      cases cut
  | lexeme lexeme rest valid induction =>
      obtain ⟨others, later, rfl⟩ := tokens_from_lexeme_eq_ok valid cut
      intro token member
      rcases List.mem_cons.1 member with rfl | member
      · exact ⟨lexeme, offset, valid, rfl⟩
      · exact induction later token member

theorem is_variable_of_lexeme {lexeme : Lexeme} {position : Nat} {name : Variable}
    (valid : IsLexeme lexeme) (named : (lexeme.toToken position).name? = some name) :
    isVariable name := by
  rcases valid with member | ⟨letter, valid, rfl⟩
  · simp only [fixedLexemes, List.mem_cons, List.not_mem_nil, or_false] at member
    rcases member with rfl | rfl | rfl | rfl | rfl | rfl | rfl <;> cases named
  · have same : some letter = some name := by
      rw [← named]
      simp [Token.name?, Lexeme.toToken, Lexeme.ofLetter, Lexeme.literal]
    cases same
    exact valid

theorem is_variable_of_tokenize {text : String} {tokens : List Token}
    (cut : tokenize text = .ok tokens) :
    ∀ name ∈ tokens.filterMap Token.name?, isVariable name := by
  intro name member
  obtain ⟨token, tokenMember, named⟩ := List.mem_filterMap.1 member
  obtain ⟨lexeme, position, valid, rfl⟩ := tokens_from_lexemes cut token tokenMember
  exact is_variable_of_lexeme valid named

end Propositional
