import Propositional.Source
import Propositional.Proofs.Decomposition
import Propositional.Proofs.Derivability

/-!
Formulas in texts that are put together. A text which has tokens is cut the same way whatever is
put behind it, and the position at which a text begins only moves its tokens, or its fault. Since
the grammar does not look at positions, texts can be joined as the phrases are which they write.
-/

namespace Propositional

set_option autoImplicit false

/-- Behind a text that has tokens, another one is cut as if it stood alone at its position. -/
theorem tokens_from_append {offset : Nat} {front : List Char} {tokens : List Token}
    (back : List Char) (cut : tokensFrom offset front = .ok tokens) :
    tokensFrom offset (front ++ back) =
      (tokensFrom (offset + byteLength front) back).map (tokens ++ ·) := by
  induction front using text_induction generalizing offset tokens with
  | nothing =>
      rw [tokensFrom] at cut
      cases cut
      rw [List.nil_append, byteLength, Nat.add_zero]
      cases tokensFrom offset back <;> rfl
  | blank character rest blank induction =>
      rw [tokens_from_blank offset rest blank] at cut
      rw [List.cons_append, tokens_from_blank offset _ blank, induction cut, byteLength,
        Nat.add_assoc]
  | refused character rest notBlank absent =>
      rw [tokens_from_refused offset notBlank absent] at cut
      cases cut
  | lexeme lexeme rest valid induction =>
      obtain ⟨others, later, rfl⟩ := tokens_from_lexeme_eq_ok valid cut
      rw [List.append_assoc, tokens_from_lexeme offset lexeme valid, induction later,
        byte_length_append, Nat.add_assoc]
      cases tokensFrom (offset + (byteLength lexeme.spelling + byteLength rest)) back <;> rfl

/-- A text has no tokens exactly when there is a character, behind a part that has some, which is
not blank and with which no lexeme begins. -/
theorem tokens_from_eq_error_iff (offset : Nat) (text : List Char) (failure : Failure) :
    tokensFrom offset text = .error failure ↔
      ∃ front character back tokens, text = front ++ character :: back ∧
        tokensFrom offset front = .ok tokens ∧ isBlank character = false ∧
        firstLexeme? (character :: back) = none ∧
        failure = .unrecognised character (offset + byteLength front) := by
  constructor
  · intro failed
    induction text using text_induction generalizing offset with
    | nothing =>
        rw [tokensFrom] at failed
        cases failed
    | blank character rest blank induction =>
        rw [tokens_from_blank offset rest blank] at failed
        obtain ⟨front, other, back, tokens, rfl, cut, notBlank, absent, rfl⟩ := induction _ failed
        refine ⟨character :: front, other, back, tokens, rfl, ?_, notBlank, absent, ?_⟩
        · rw [tokens_from_blank offset front blank, cut]
        · rw [byteLength, Nat.add_assoc]
    | refused character rest notBlank absent =>
        rw [tokens_from_refused offset notBlank absent] at failed
        cases failed
        refine ⟨[], character, rest, [], rfl, ?_, notBlank, absent, rfl⟩
        rw [tokensFrom]
    | lexeme lexeme rest valid induction =>
        rw [tokens_from_lexeme offset lexeme valid] at failed
        cases later : tokensFrom (offset + byteLength lexeme.spelling) rest with
        | ok tokens =>
            rw [later] at failed
            cases failed
        | error fault =>
            rw [later] at failed
            cases failed
            obtain ⟨front, other, back, tokens, rfl, cut, notBlank, absent, rfl⟩ :=
              induction _ later
            refine ⟨lexeme.spelling ++ front, other, back, lexeme.toToken offset :: tokens, ?_, ?_,
              notBlank, absent, ?_⟩
            · rw [List.append_assoc]
            · rw [tokens_from_lexeme offset lexeme valid, cut]
              rfl
            · rw [byte_length_append, Nat.add_assoc]
  · rintro ⟨front, character, back, tokens, rfl, cut, notBlank, absent, rfl⟩
    rw [tokens_from_append _ cut, tokens_from_refused _ notBlank absent]
    rfl

def Token.moveBy (distance : Nat) (token : Token) : Token :=
  { token with offset := token.offset + distance }

def Failure.moveBy (distance : Nat) : Failure → Failure
  | .unrecognised character offset => .unrecognised character (offset + distance)
  | .unclosed offset => .unclosed (offset + distance)
  | .unexpected literal offset => .unexpected literal (offset + distance)
  | .trailing offset => .trailing (offset + distance)
  | failure => failure

def moveBy (distance : Nat) : Except Failure (List Token) → Except Failure (List Token)
  | .ok tokens => .ok (tokens.map (Token.moveBy distance))
  | .error failure => .error (failure.moveBy distance)

theorem move_by_map_cons (distance : Nat) (token : Token) (cut : Except Failure (List Token)) :
    moveBy distance (cut.map (token :: ·)) =
      (moveBy distance cut).map (token.moveBy distance :: ·) := by
  cases cut <;> rfl

theorem tokens_from_move_by (distance offset : Nat) (text : List Char) :
    tokensFrom (offset + distance) text = moveBy distance (tokensFrom offset text) := by
  induction text using text_induction generalizing offset with
  | nothing =>
      rw [tokensFrom, tokensFrom]
      rfl
  | blank character rest blank induction =>
      rw [tokens_from_blank _ rest blank, tokens_from_blank _ rest blank, Nat.add_right_comm,
        induction]
  | refused character rest notBlank absent =>
      rw [tokens_from_refused _ notBlank absent, tokens_from_refused _ notBlank absent]
      rfl
  | lexeme lexeme rest valid induction =>
      rw [tokens_from_lexeme _ lexeme valid, tokens_from_lexeme _ lexeme valid,
        Nat.add_right_comm, induction, move_by_map_cons]
      rfl

theorem Derives.of_shapes {phrase : Phrase} {tokens others : List Token} {formula : Formula}
    (derived : Derives phrase tokens formula)
    (same : others.map Token.shape = tokens.map Token.shape) :
    Derives phrase others formula := by
  induction derived generalizing others with
  | @letter token name named =>
      obtain ⟨other, rfl, shape⟩ := List.map_eq_singleton_iff.1 same
      exact .letter ((congrArg Prod.snd shape).trans named)
  | @enclosed left right tokens formula opens closes inner induction =>
      rw [List.map_cons, List.map_append, List.map_singleton] at same
      obtain ⟨otherLeft, later, rfl, leftSame, laterSame⟩ := List.map_eq_cons_iff.1 same
      obtain ⟨inside, ending, rfl, insideSame, endingSame⟩ := List.map_eq_append_iff.1 laterSame
      obtain ⟨otherRight, rfl, rightSame⟩ := List.map_eq_singleton_iff.1 endingSame
      exact .enclosed ((congrArg Prod.fst leftSame).trans opens)
        ((congrArg Prod.fst rightSame).trans closes) (induction insideSame)
  | secondary inner induction => exact .secondary (induction same)
  | @negation token tokens formula negates inner induction =>
      obtain ⟨other, later, rfl, tokenSame, laterSame⟩ := List.map_eq_cons_iff.1 same
      exact .negation ((congrArg Prod.fst tokenSame).trans negates) (induction laterSame)
  | primary inner induction => exact .primary (induction same)
  | tight joins _ _ earlier later =>
      rw [List.map_append, List.map_cons] at same
      obtain ⟨before, rest, rfl, beforeSame, restSame⟩ := List.map_eq_append_iff.1 same
      obtain ⟨token, after, rfl, tokenSame, afterSame⟩ := List.map_eq_cons_iff.1 restSame
      exact .tight ((Token.joins_of_shape .tight tokenSame).trans joins) (earlier beforeSame)
        (later afterSame)
  | term inner induction => exact .term (induction same)
  | loose joins _ _ earlier later =>
      rw [List.map_append, List.map_cons] at same
      obtain ⟨before, rest, rfl, beforeSame, restSame⟩ := List.map_eq_append_iff.1 same
      obtain ⟨token, after, rfl, tokenSame, afterSame⟩ := List.map_eq_cons_iff.1 restSame
      exact .loose ((Token.joins_of_shape .loose tokenSame).trans joins) (earlier beforeSame)
        (later afterSame)

theorem tokens_from_moved {offset : Nat} {text : List Char} {tokens : List Token}
    (cut : tokensFrom offset text = .ok tokens) (other : Nat) :
    ∃ moved, tokensFrom other text = .ok moved ∧
      moved.map Token.shape = tokens.map Token.shape := by
  have here := tokens_from_move_by offset 0 text
  have there := tokens_from_move_by other 0 text
  rw [Nat.zero_add] at here there
  rw [cut] at here
  cases start : tokensFrom 0 text with
  | error failure =>
      rw [start] at here
      cases here
  | ok base =>
      rw [start] at here there
      cases here
      refine ⟨base.map (Token.moveBy other), there, ?_⟩
      -- a shape has no place in it
      rw [List.map_map, List.map_map]
      rfl

theorem tokens_from_joined {offset : Nat} {front back : List Char}
    {frontTokens backTokens : List Token} (frontCut : tokensFrom offset front = .ok frontTokens)
    (backCut : tokensFrom (offset + byteLength front) back = .ok backTokens) :
    tokensFrom offset (front ++ back) = .ok (frontTokens ++ backTokens) := by
  rw [tokens_from_append back frontCut, backCut]
  rfl

theorem tokens_from_piece (offset : Nat) (piece : Piece) (wellFormed : piece.IsWellFormed) :
    tokensFrom offset piece.characters =
      .ok [piece.lexeme.toToken (offset + byteLength piece.gap)] := by
  have cut := tokens_from_lay_out offset [piece] [] (by simpa using wellFormed) (by simp)
  rw [Piece.layOut, List.append_nil, List.flatMap_singleton] at cut
  exact cut

/-- Wherever it stands, the text has tokens which make up a phrase with the given tree. -/
def Writes (phrase : Phrase) (text : List Char) (formula : Formula) : Prop :=
  ∀ offset, ∃ tokens, tokensFrom offset text = .ok tokens ∧ Derives phrase tokens formula

namespace Writes

variable {text front back : List Char} {formula left right : Formula}

theorem of_text {text : String} (read : Formula.ofText text false = .ok formula) :
    Writes .expression text.toList formula := by
  intro offset
  obtain ⟨tokens, cut, tokensRead⟩ := (Formula.of_text_eq_ok_iff text false formula).1 read
  have derived := (of_tokens_iff_derives tokens formula).1 tokensRead
  obtain ⟨moved, movedCut, same⟩ := tokens_from_moved cut offset
  exact ⟨moved, movedCut, derived.of_shapes same⟩

theorem to_text {text : String} (writes : Writes .expression text.toList formula) :
    Formula.ofText text false = .ok formula := by
  obtain ⟨tokens, cut, derived⟩ := writes 0
  have read := (of_tokens_iff_derives tokens formula).2 derived
  exact (Formula.of_text_eq_ok_iff text false formula).2 ⟨tokens, cut, read⟩

theorem imp {phrase other : Phrase} (writes : Writes phrase text formula)
    (implies : ∀ tokens, Derives phrase tokens formula → Derives other tokens formula) :
    Writes other text formula := by
  intro offset
  obtain ⟨tokens, cut, derived⟩ := writes offset
  exact ⟨tokens, cut, implies tokens derived⟩

theorem enclosed (writes : Writes .expression text formula) :
    Writes .secondary ('(' :: (text ++ [')'])) formula := by
  intro offset
  obtain ⟨tokens, cut, derived⟩ := writes (offset + byteLength ['('])
  have opening := tokens_from_piece offset ⟨[], ⟨.opening, ['(']⟩⟩ ⟨by simp, .inl (by decide)⟩
  have closing := tokens_from_piece (offset + byteLength ['('] + byteLength text)
    ⟨[], ⟨.closing, [')']⟩⟩ ⟨by simp, .inl (by decide)⟩
  exact ⟨_, tokens_from_joined opening (tokens_from_joined cut closing),
    .enclosed rfl rfl derived⟩

theorem negation (writes : Writes .secondary text formula) :
    Writes .primary ('~' :: text) (.not formula) := by
  intro offset
  obtain ⟨tokens, cut, derived⟩ := writes (offset + byteLength ['~'])
  have negation := tokens_from_piece offset ⟨[], ⟨.negation, ['~']⟩⟩ ⟨by simp, .inl (by decide)⟩
  exact ⟨_, tokens_from_joined negation cut, .negation rfl derived⟩

theorem behind_space {phrase : Phrase} (writes : Writes phrase text formula) :
    Writes phrase (' ' :: text) formula := by
  intro offset
  obtain ⟨tokens, cut, derived⟩ := writes (offset + byteLength [' '])
  refine ⟨tokens, ?_, derived⟩
  rw [← List.singleton_append, tokens_from_gap offset [' '] text blank_of_mem_space, cut]

theorem joined (connective : Connective) (earlier : Writes connective.strength.whole front left)
    (later : Writes connective.strength.operand back right) :
    Writes connective.strength.whole (front ++ (' ' :: connective.symbol ++ ' ' :: back))
      (.binary connective left right) := by
  intro offset
  obtain ⟨frontTokens, frontCut, frontDerived⟩ := earlier offset
  have between := tokens_from_piece (offset + byteLength front)
    ⟨[' '], .ofConnective connective⟩ ⟨blank_of_mem_space, is_lexeme_of_connective connective⟩
  obtain ⟨backTokens, backCut, backDerived⟩ := later.behind_space
    (offset + byteLength front + byteLength (' ' :: connective.symbol))
  have joins := (Token.joins_eq_some_iff connective.strength
    ((Lexeme.ofConnective connective).toToken (offset + byteLength front + byteLength [' ']))
    connective).2 ⟨rfl, rfl⟩
  exact ⟨_, tokens_from_joined frontCut (tokens_from_joined between backCut),
    frontDerived.joined joins backDerived⟩

end Writes

def joinedText (connective : Connective) (first second : String) : String :=
  "(" ++ first ++ ") " ++ String.ofList connective.symbol ++ " (" ++ second ++ ")"

namespace Formula

theorem of_text_negation {text : String} {formula : Formula}
    (read : Formula.ofText text false = .ok formula) :
    Formula.ofText ("~(" ++ text ++ ")") false = .ok (.not formula) := by
  have written := (Writes.of_text read).enclosed.negation
  have characters : ("~(" ++ text ++ ")").toList = '~' :: '(' :: (text.toList ++ [')']) := by
    simp
  rw [← characters] at written
  apply Writes.to_text
  apply written.imp
  intro tokens derived
  exact .term (.primary derived)

theorem of_text_joined {first second : String} {left right : Formula} (connective : Connective)
    (leftRead : Formula.ofText first false = .ok left)
    (rightRead : Formula.ofText second false = .ok right) :
    Formula.ofText (joinedText connective first second) false =
      .ok (.binary connective left right) := by
  have earlier := (Writes.of_text leftRead).enclosed.imp (fun tokens derived =>
    (derived.operand_of_secondary connective.strength).of_operand)
  have later := (Writes.of_text rightRead).enclosed.imp (fun tokens derived =>
    derived.operand_of_secondary connective.strength)
  have written := earlier.joined connective later
  have characters : (joinedText connective first second).toList =
      '(' :: (first.toList ++ [')']) ++
        (' ' :: connective.symbol ++ ' ' :: '(' :: (second.toList ++ [')'])) := by
    simp [joinedText]
  rw [← characters] at written
  apply Writes.to_text
  apply written.imp
  intro tokens derived
  exact derived.of_whole connective.strength

end Formula

end Propositional
