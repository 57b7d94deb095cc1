import Mathlib.Data.List.Infix
import Propositional.Proofs.Concatenation

/-!
Texts that go on. Behind a text that has tokens, the tokens of what follows are those of the same
text standing alone, further behind by the bytes in front of it. A text that has none keeps its
fault, because the characters there begin no lexeme, whatever follows them, unless the text breaks
off inside an arrow.
-/

namespace Propositional

set_option autoImplicit false

/-- What lexemes begin with that are not lexemes themselves. -/
def incompleteArrows : List (List Char) := [['<'], ['<', '-'], ['-']]

theorem front_of_fixed_lexeme {lexeme : Lexeme} (member : lexeme ∈ fixedLexemes)
    {front : List Char} (starts : front <+: lexeme.spelling) :
    front = [] ∨ front = lexeme.spelling ∨ front ∈ incompleteArrows := by
  have fronts : ∀ lexeme ∈ fixedLexemes, ∀ front ∈ lexeme.spelling.inits,
      front = [] ∨ front = lexeme.spelling ∨ front ∈ incompleteArrows := by decide
  exact fronts lexeme member front ((List.mem_inits front lexeme.spelling).2 starts)

theorem incomplete_arrow_completed {text : List Char} (incomplete : text ∈ incompleteArrows) :
    ∃ lexeme ∈ fixedLexemes, ∃ back, text ++ back = lexeme.spelling := by
  simp only [incompleteArrows, List.mem_cons, List.not_mem_nil, or_false] at incomplete
  rcases incomplete with rfl | rfl | rfl
  · exact ⟨.ofConnective .iff, by decide, ['-', '>'], rfl⟩
  · exact ⟨.ofConnective .iff, by decide, ['>'], rfl⟩
  · exact ⟨.ofConnective .implies, by decide, ['>'], rfl⟩

theorem first_lexeme_eq_none_iff (character : Char) (rest : List Char) :
    firstLexeme? (character :: rest) = none ↔
      (∀ lexeme ∈ fixedLexemes, ¬ lexeme.spelling <+: character :: rest) ∧
        isLetter character = false := by
  unfold firstLexeme?
  cases found : fixedLexemes.find? (fun lexeme => lexeme.spelling.isPrefixOf (character :: rest)) with
  | some lexeme =>
      have tried : lexeme.spelling.isPrefixOf (character :: rest) = true :=
        List.find?_some (p := fun lexeme : Lexeme => lexeme.spelling.isPrefixOf _) found
      have starts := List.isPrefixOf_iff_prefix.1 tried
      have member := List.mem_of_find?_eq_some found
      simp only [reduceCtorEq, false_iff, not_and]
      intro untried
      exact absurd starts (untried lexeme member)
  | none =>
      have untried := List.find?_eq_none.1 found
      simp only [List.isPrefixOf_iff_prefix] at untried
      simpa using fun _ => untried

/-- What follows does not turn characters into the beginning of a lexeme, unless they are the
beginning of an arrow. -/
theorem first_lexeme_of_longer {character : Char} {rest : List Char}
    (absent : firstLexeme? (character :: rest) = none)
    (complete : character :: rest ∉ incompleteArrows) (back : List Char) :
    firstLexeme? (character :: (rest ++ back)) = none := by
  obtain ⟨untried, notLetter⟩ := (first_lexeme_eq_none_iff character rest).1 absent
  rw [first_lexeme_eq_none_iff]
  refine ⟨?_, notLetter⟩
  intro lexeme member starts
  have extended : character :: rest <+: character :: (rest ++ back) := List.prefix_append _ back
  rcases List.prefix_or_prefix_of_prefix starts extended with shorter | longer
  · exact untried lexeme member shorter
  · rcases front_of_fixed_lexeme member longer with empty | whole | incomplete
    · cases empty
    · exact untried lexeme member (by rw [whole])
    · exact complete incomplete

theorem tokens_from_arrow_completed {offset : Nat} {front after : List Char} {tokens : List Token}
    (cut : tokensFrom offset front = .ok tokens) (incomplete : after ∈ incompleteArrows) :
    ∃ back arrow, tokensFrom offset (front ++ (after ++ back)) = .ok (tokens ++ [arrow]) := by
  obtain ⟨lexeme, member, back, spelled⟩ := incomplete_arrow_completed incomplete
  have arrow := tokens_from_lexeme (offset + byteLength front) lexeme (.inl member) []
  rw [tokensFrom, List.append_nil, ← spelled] at arrow
  exact ⟨back, lexeme.toToken (offset + byteLength front), tokens_from_joined cut arrow⟩

/-- Behind a text that has tokens, another is cut as if it stood alone, only further behind by the
bytes of the first. A text with a fault falls into a part in front of it and a part that begins with
it. Whatever follows, the fault is the same, unless the second part is an incomplete arrow, and then
some text completes it. -/
theorem tokenize_extends (text : String) :
    (∀ tokens, tokenize text = .ok tokens → ∀ back,
      tokenize (text ++ back) = (moveBy text.utf8ByteSize (tokenize back)).map (tokens ++ ·)) ∧
    ∀ failure, tokenize text = .error failure →
      ∃ before after character, text = before ++ after ∧
        failure = .unrecognised character before.utf8ByteSize ∧
        (after.toList ∉ incompleteArrows → ∀ back, tokenize (text ++ back) = .error failure) ∧
        (after.toList ∈ incompleteArrows → ∃ back tokens, tokenize (text ++ back) = .ok tokens) := by
  constructor
  · intro tokens cut back
    rw [tokenize, String.toList_append, tokens_from_append _ cut, tokens_from_move_by,
      byte_length_eq, String.ofList_toList]
    rfl
  · intro failure failed
    obtain ⟨front, character, rest, tokens, written, cut, notBlank, absent, rfl⟩ :=
      (tokens_from_eq_error_iff 0 text.toList failure).1 failed
    refine ⟨String.ofList front, String.ofList (character :: rest), character, ?parts, ?placed,
      ?stays, ?completed⟩
    case parts =>
      apply String.toList_injective
      simpa using written
    case placed => rw [byte_length_eq, Nat.zero_add]
    case stays =>
      intro complete back
      rw [String.toList_ofList] at complete
      have absentStill := first_lexeme_of_longer absent complete back.toList
      rw [tokenize, String.toList_append, written, List.append_assoc, tokens_from_eq_error_iff]
      exact ⟨front, character, rest ++ back.toList, tokens, rfl, cut, notBlank, absentStill, rfl⟩
    case completed =>
      intro incomplete
      rw [String.toList_ofList] at incomplete
      obtain ⟨back, arrow, whole⟩ := tokens_from_arrow_completed cut incomplete
      refine ⟨String.ofList back, tokens ++ [arrow], ?_⟩
      rw [tokenize, String.toList_append, written, String.toList_ofList, List.append_assoc]
      exact whole

/-- An arrow that breaks off is reported where it begins, unless the text goes on with the rest. -/
example : tokenize "p <" = .error (.unrecognised '<' 2) ∧
    tokenize ("p <" ++ "->") = .ok [⟨.letter, "p", 0⟩, ⟨.joining .iff, "<->", 2⟩] := by
  constructor <;> cbv

end Propositional
