import Propositional.Reading
import Propositional.Token.Lexer

/-!
Where the tokens of a formula come from: a text, or a list of tokens that may be any at all.
-/

namespace Propositional

set_option autoImplicit false

inductive Source where
  | text (text : String)
  | tokens (tokens : List Token)

def Source.toTokens : Source → Except Failure (List Token)
  | .text written => tokenize written
  | .tokens given => .ok given

def Formula.ofText (text : String) (allowTrailing : Bool) : Except Failure Formula := do
  Formula.ofTokens (← tokenize text) allowTrailing

theorem Formula.of_text_of_tokenize {text : String} {tokens : List Token}
    (cut : tokenize text = .ok tokens) (allowTrailing : Bool) :
    Formula.ofText text allowTrailing = Formula.ofTokens tokens allowTrailing := by
  rw [Formula.ofText, cut]
  rfl

theorem Formula.of_text_eq_ok_iff (text : String) (allowTrailing : Bool) (formula : Formula) :
    Formula.ofText text allowTrailing = .ok formula ↔
      ∃ tokens, tokenize text = .ok tokens ∧
        Formula.ofTokens tokens allowTrailing = .ok formula := by
  unfold Formula.ofText
  constructor
  · intro read
    match cut : tokenize text with
    | .error failure =>
        rw [cut] at read
        cases read
    | .ok tokens =>
        rw [cut] at read
        exact ⟨tokens, rfl, read⟩
  · rintro ⟨tokens, cut, read⟩
    rw [cut]
    exact read

end Propositional
