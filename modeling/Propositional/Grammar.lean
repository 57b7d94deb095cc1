import Propositional.Formula.Basic
import Propositional.Token.Basic

/-!
The grammar of formulas over tokens.

An expression is a term, or an expression joined to a term by a loose connective; a term
is a primary, or a term joined to a primary by a tight connective; a primary is a secondary
or the negation of one; a secondary is a letter or an enclosed expression. So negation binds
tighter than `^` and `v`, which bind tighter than `->` and `<->`, and connectives of one
strength are grouped from the left.
-/

namespace Propositional

set_option autoImplicit false

inductive Phrase where
  | expression
  | term
  | primary
  | secondary
  deriving DecidableEq

/-- Grows from a phrase that may begin another to the phrase which it begins. -/
def Phrase.rank : Phrase → Nat
  | .secondary => 0
  | .primary => 1
  | .term => 2
  | .expression => 3

def Strength.operand : Strength → Phrase
  | .tight => .primary
  | .loose => .term

def Strength.whole : Strength → Phrase
  | .tight => .term
  | .loose => .expression

/-- `Derives phrase tokens formula` holds when the whole of the tokens is a phrase of the
given sort, and the formula is its tree. -/
inductive Derives : Phrase → List Token → Formula → Prop where
  | letter {token : Token} {name : Variable} (named : token.name? = some name) :
      Derives .secondary [token] (.letter name)
  | enclosed {left right : Token} {tokens : List Token} {formula : Formula}
      (opens : left.kind = .opening) (closes : right.kind = .closing)
      (inner : Derives .expression tokens formula) :
      Derives .secondary (left :: (tokens ++ [right])) formula
  | secondary {tokens : List Token} {formula : Formula}
      (inner : Derives .secondary tokens formula) : Derives .primary tokens formula
  | negation {token : Token} {tokens : List Token} {formula : Formula}
      (negates : token.kind = .negation) (inner : Derives .secondary tokens formula) :
      Derives .primary (token :: tokens) (.not formula)
  | primary {tokens : List Token} {formula : Formula}
      (inner : Derives .primary tokens formula) : Derives .term tokens formula
  | tight {token : Token} {connective : Connective} {before after : List Token}
      {left right : Formula} (joins : token.joins? .tight = some connective)
      (earlier : Derives .term before left) (later : Derives .primary after right) :
      Derives .term (before ++ token :: after) (.binary connective left right)
  | term {tokens : List Token} {formula : Formula}
      (inner : Derives .term tokens formula) : Derives .expression tokens formula
  | loose {token : Token} {connective : Connective} {before after : List Token}
      {left right : Formula} (joins : token.joins? .loose = some connective)
      (earlier : Derives .expression before left) (later : Derives .term after right) :
      Derives .expression (before ++ token :: after) (.binary connective left right)

theorem Derives.nonempty {phrase : Phrase} {tokens : List Token} {formula : Formula}
    (derived : Derives phrase tokens formula) : tokens ≠ [] := by
  induction derived <;> simp_all

end Propositional
