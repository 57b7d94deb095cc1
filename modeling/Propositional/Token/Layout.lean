import Propositional.Token.Lexer

/-!
Texts laid out from lexemes with blanks around them. Such a text is cut into just these
lexemes, each at the position where it was laid down, whatever the blanks are.
-/

namespace Propositional

set_option autoImplicit false

/-- The lexemes of the language: the fixed ones and the letters that name variables. -/
def IsLexeme (lexeme : Lexeme) : Prop :=
  lexeme ∈ fixedLexemes ∨ ∃ letter, isVariable letter ∧ lexeme = .ofLetter letter

theorem is_lexeme_of_connective (connective : Connective) :
    IsLexeme (.ofConnective connective) := by
  left
  cases connective <;> decide

structure Piece where
  gap : List Char
  lexeme : Lexeme

namespace Piece

def IsWellFormed (piece : Piece) : Prop :=
  (∀ character ∈ piece.gap, isBlank character) ∧ IsLexeme piece.lexeme

def characters (piece : Piece) : List Char := piece.gap ++ piece.lexeme.spelling

def layOut (pieces : List Piece) (ending : List Char) : List Char :=
  pieces.flatMap characters ++ ending

/-- The tokens of the pieces when the first gap begins at the given position. -/
def toTokens : Nat → List Piece → List Token
  | _, [] => []
  | offset, piece :: pieces =>
      piece.lexeme.toToken (offset + byteLength piece.gap) ::
        toTokens (offset + byteLength piece.characters) pieces

end Piece

theorem byte_length_append (earlier later : List Char) :
    byteLength (earlier ++ later) = byteLength earlier + byteLength later := by
  induction earlier with
  | nil => simp [byteLength]
  | cons character earlier induction =>
      rw [List.cons_append, byteLength, byteLength, induction, Nat.add_assoc]

theorem not_blank_of_is_letter (character : Char) (letter : isLetter character) :
    isBlank character = false := by
  simp only [isLetter, decide_eq_true_eq, Char.le_def, UInt32.le_iff_toNat_le] at letter
  have lower : 97 ≤ character.toNat := letter.1
  have upper : character.toNat ≤ 122 := letter.2
  simp only [isBlank, blankRanges, List.any_cons, List.any_nil, Bool.or_false, Bool.or_eq_false_iff,
    decide_eq_false_iff_not]
  omega

theorem blank_of_mem_space : ∀ character ∈ [' '], isBlank character := by
  rw [List.forall_mem_singleton]
  decide

theorem first_lexeme_fixed (lexeme : Lexeme) (member : lexeme ∈ fixedLexemes)
    (suffix : List Char) : firstLexeme? (lexeme.spelling ++ suffix) = some lexeme := by
  simp only [fixedLexemes, List.mem_cons, List.not_mem_nil, or_false] at member
  rcases member with rfl | rfl | rfl | rfl | rfl | rfl | rfl <;> rfl

theorem first_lexeme_letter (letter : Char) (valid : isVariable letter) (suffix : List Char) :
    firstLexeme? (letter :: suffix) = some (.ofLetter letter) := by
  have bounds := (is_variable_iff letter).1 valid
  have lower : 97 ≤ letter.toNat := by
    simpa [Char.le_def, UInt32.le_iff_toNat_le] using bounds.1
  have upper : letter.toNat ≤ 122 := by
    simpa [Char.le_def, UInt32.le_iff_toNat_le] using bounds.2.1
  have different (other : Char) (outside : other.toNat < 97 ∨ 122 < other.toNat) :
      (other == letter) = false := by
    rw [beq_eq_false_iff_ne]
    rintro rfl
    omega
  have isLetter : isLetter letter = true := by
    simpa [Propositional.isLetter] using ⟨bounds.1, bounds.2.1⟩
  have notReserved : ('v' == letter) = false := by
    rw [beq_eq_false_iff_ne]
    exact Ne.symm bounds.2.2
  simp [firstLexeme?, fixedLexemes, Lexeme.ofConnective, Connective.symbol, List.isPrefixOf,
    different, notReserved, isLetter]

theorem first_lexeme_of_is_lexeme (lexeme : Lexeme) (valid : IsLexeme lexeme)
    (suffix : List Char) : firstLexeme? (lexeme.spelling ++ suffix) = some lexeme := by
  rcases valid with member | ⟨letter, valid, rfl⟩
  · exact first_lexeme_fixed lexeme member suffix
  · exact first_lexeme_letter letter valid suffix

theorem spelling_of_is_lexeme (lexeme : Lexeme) (valid : IsLexeme lexeme) :
    ∃ first rest, lexeme.spelling = first :: rest ∧ isBlank first = false := by
  rcases valid with member | ⟨letter, valid, rfl⟩
  · simp only [fixedLexemes, List.mem_cons, List.not_mem_nil, or_false] at member
    rcases member with rfl | rfl | rfl | rfl | rfl | rfl | rfl <;> exact ⟨_, _, rfl, by decide⟩
  · have isLetter : isLetter letter := (Bool.and_eq_true_iff.1 valid).1
    exact ⟨letter, [], rfl, not_blank_of_is_letter letter isLetter⟩

theorem tokens_from_gap (offset : Nat) (gap suffix : List Char)
    (blank : ∀ character ∈ gap, isBlank character) :
    tokensFrom offset (gap ++ suffix) = tokensFrom (offset + byteLength gap) suffix := by
  induction gap generalizing offset with
  | nil => rfl
  | cons character gap induction =>
      rw [List.cons_append, tokensFrom, if_pos (blank character (by simp)),
        induction _ (by intro other member; exact blank other (by simp [member])),
        byteLength, Nat.add_assoc]

theorem tokens_from_lexeme (offset : Nat) (lexeme : Lexeme) (valid : IsLexeme lexeme)
    (suffix : List Char) :
    tokensFrom offset (lexeme.spelling ++ suffix) =
      (tokensFrom (offset + byteLength lexeme.spelling) suffix).map
        (lexeme.toToken offset :: ·) := by
  obtain ⟨first, rest, spelled, notBlank⟩ := spelling_of_is_lexeme lexeme valid
  have found := first_lexeme_of_is_lexeme lexeme valid suffix
  have dropped : (lexeme.spelling ++ suffix).drop lexeme.spelling.length = suffix := by simp
  rw [spelled, List.cons_append] at found dropped ⊢
  rw [tokensFrom, if_neg (by simp [notBlank])]
  split
  next missing => simp [found] at missing
  next other same =>
    rw [found] at same
    cases same
    rw [spelled, dropped]

theorem tokens_from_lay_out (offset : Nat) (pieces : List Piece) (ending : List Char)
    (wellFormed : ∀ piece ∈ pieces, piece.IsWellFormed)
    (blank : ∀ character ∈ ending, isBlank character) :
    tokensFrom offset (Piece.layOut pieces ending) = .ok (Piece.toTokens offset pieces) := by
  induction pieces generalizing offset with
  | nil =>
      have skipped := tokens_from_gap offset ending [] blank
      rw [List.append_nil, tokensFrom] at skipped
      exact skipped
  | cons piece pieces induction =>
      have here := wellFormed piece (by simp)
      have later := induction (offset + byteLength piece.characters)
        (by intro other member; exact wellFormed other (by simp [member]))
      simp only [Piece.layOut, List.flatMap_cons, Piece.characters, List.append_assoc] at later ⊢
      rw [tokens_from_gap offset _ _ here.1, tokens_from_lexeme _ _ here.2, Nat.add_assoc,
        ← byte_length_append, later]
      rfl

end Propositional
