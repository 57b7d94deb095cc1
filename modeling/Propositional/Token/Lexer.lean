import Propositional.Failure
import Propositional.Text.Blank
import Propositional.Token.Basic

/-!
Cutting a text into tokens. Blank characters are skipped. Anywhere else the text
has to begin with a lexeme: one of the fixed spellings, in the order of
`fixedLexemes`, or else a lowercase letter. No character is left out: what is
neither skipped nor matched is reported with its position in bytes.
-/

namespace Propositional

set_option autoImplicit false

structure Lexeme where
  kind : Kind
  spelling : List Char
  deriving DecidableEq

namespace Lexeme

def literal (lexeme : Lexeme) : String := String.ofList lexeme.spelling

def ofConnective (connective : Connective) : Lexeme := ⟨.joining connective, connective.symbol⟩

def ofLetter (letter : Char) : Lexeme := ⟨.letter, [letter]⟩

def toToken (lexeme : Lexeme) (offset : Nat) : Token := ⟨lexeme.kind, lexeme.literal, offset⟩

end Lexeme

/-- The lexemes with one spelling, in the order in which they are tried. None is written
as the beginning of a later one, and disjunction is tried before the letters. -/
def fixedLexemes : List Lexeme :=
  [.ofConnective .iff, .ofConnective .implies, .ofConnective .and, .ofConnective .or,
    ⟨.negation, ['~']⟩, ⟨.opening, ['(']⟩, ⟨.closing, [')']⟩]

def firstLexeme? (text : List Char) : Option Lexeme :=
  match fixedLexemes.find? (fun lexeme => lexeme.spelling.isPrefixOf text) with
  | some lexeme => some lexeme
  | none =>
      match text with
      | [] => none
      | character :: _ => if isLetter character then some (.ofLetter character) else none

theorem fixed_lexemes_nonempty : ∀ lexeme ∈ fixedLexemes, 0 < lexeme.spelling.length := by decide

theorem first_lexeme_nonempty {text : List Char} {lexeme : Lexeme}
    (found : firstLexeme? text = some lexeme) : 0 < lexeme.spelling.length := by
  unfold firstLexeme? at found
  split at found
  next fixed same =>
    cases found
    exact fixed_lexemes_nonempty _ (List.mem_of_find?_eq_some same)
  next =>
    split at found
    · cases found
    · split at found
      · cases found
        exact Nat.one_pos
      · cases found

def byteLength : List Char → Nat
  | [] => 0
  | character :: rest => character.utf8Size + byteLength rest

/-- The tokens of a text which begins at the given position. -/
def tokensFrom (offset : Nat) (text : List Char) : Except Failure (List Token) :=
  match text with
  | [] => .ok []
  | character :: rest =>
      if isBlank character then
        tokensFrom (offset + character.utf8Size) rest
      else
        match _ : firstLexeme? (character :: rest) with
        | none => .error (.unrecognised character offset)
        | some lexeme =>
            (tokensFrom (offset + byteLength lexeme.spelling)
              ((character :: rest).drop lexeme.spelling.length)).map (lexeme.toToken offset :: ·)
termination_by text.length
decreasing_by
  · simp
  · have := first_lexeme_nonempty ‹_›
    simp only [List.length_drop, List.length_cons]
    omega

def tokenize (text : String) : Except Failure (List Token) := tokensFrom 0 text.toList

def literals (tokens : List Token) : String := String.join (tokens.map Token.literal)

end Propositional
