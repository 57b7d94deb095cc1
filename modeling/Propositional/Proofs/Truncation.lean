import Propositional.Proofs.Concatenation
import Propositional.Proofs.Viability
import Propositional.Source

/-!
Texts that end where a fault was found. The text in front of the offset has just the tokens which
were cut or read by then. Where an operand is missing, or a parenthesis is opened that is not closed
later on, reading has come to a place at which a phrase is still awaited, so without the rest it
fails for want of further tokens. In front of trailing tokens it has read the whole formula.
-/

namespace Propositional

set_option autoImplicit false

open Interpretation (construction)

/-- The tokens end where what has been read of the phrase does not, and with nothing in doubt
before. -/
def Awaits (phrase : Phrase) (tokens : List Token) : Prop :=
  construction.read phrase tokens () = ⟨.error .incomplete, [], ()⟩

namespace Awaits

theorem nothing (phrase : Phrase) : Awaits phrase [] := construction.read_nothing phrase ()

theorem enclosed {token : Token} {tokens : List Token} (opens : token.kind = .opening)
    (inner : Awaits .expression tokens) : Awaits .secondary (token :: tokens) := by
  rw [Awaits, construction.read_secondary, if_pos opens, inner]
  rfl

theorem negation {token : Token} {tokens : List Token} (negates : token.kind = .negation)
    (inner : Awaits .secondary tokens) : Awaits .primary (token :: tokens) := by
  rw [Awaits, construction.read_primary, if_pos negates, inner]
  rfl

theorem secondary {tokens : List Token} (plain : ∀ token ∈ tokens.head?, token.kind ≠ .negation)
    (inner : Awaits .secondary tokens) : Awaits .primary tokens := by
  cases tokens with
  | nil => exact nothing .primary
  | cons token rest =>
      rw [Awaits, construction.read_primary, if_neg (plain token rfl)]
      exact inner

theorem operand (strength : Strength) {tokens : List Token}
    (inner : Awaits strength.operand tokens) : Awaits strength.whole tokens := by
  rw [Awaits, construction.read_whole, inner, Interpretation.join_error]

theorem joined {strength : Strength} {token : Token} {connective : Connective}
    {before after : List Token} {left : Formula}
    (joins : token.joins? strength = some connective)
    (earlier : Derives strength.whole before left) (later : Awaits strength.operand after) :
    Awaits strength.whole (before ++ token :: after) := by
  rw [Awaits, read_in_front_of_joins joins earlier, construction.join_connective joins, later,
    Reading.apply, Interpretation.join_error]

theorem of_tokens {tokens : List Token} (awaits : Awaits .expression tokens)
    (allowTrailing : Bool) : Formula.ofTokens tokens allowTrailing = .error .incomplete := by
  rw [Formula.ofTokens, Interpretation.readAll, awaits]

end Awaits

/-- The failures which name the place of a token, for want of another one in it or of a closing
one later on. -/
inductive Blames : Failure → Token → Prop where
  | unexpected (token : Token) : Blames (.unexpected token.literal token.offset) token
  | unclosed {token : Token} (opens : token.kind = .opening) :
      Blames (.unclosed token.offset) token

/-- The failure is the end of the tokens, or it blames one of them in front of which the phrase is
still awaited. -/
def BlamesAwaited (phrase : Phrase) (tokens : List Token) (failure : Failure) : Prop :=
  failure = .incomplete ∨ ∃ before token after, tokens = before ++ token :: after ∧
    Awaits phrase before ∧ Blames failure token

theorem BlamesAwaited.behind {inner outer : Phrase} {rest : List Token} {failure : Failure}
    (front : List Token) (blames : BlamesAwaited inner rest failure)
    (awaits : ∀ before, before <+: rest → Awaits inner before → Awaits outer (front ++ before)) :
    BlamesAwaited outer (front ++ rest) failure := by
  rcases blames with ended | ⟨before, token, after, rfl, awaited, blame⟩
  · exact .inl ended
  · refine .inr ⟨front ++ before, token, after, ?_, ?_, blame⟩
    · rw [List.append_assoc]
    · exact awaits before (List.prefix_append _ _) awaited

def FailsAwaiting (phrase : Phrase) (tokens : List Token) (reading : Reading Unit Formula) : Prop :=
  ∀ failure, reading.outcome = .error failure → BlamesAwaited phrase tokens failure

namespace FailsAwaiting

theorem refused (phrase : Phrase) (tokens : List Token) :
    FailsAwaiting phrase tokens (.refused tokens ()) := by
  intro failure failed
  match tokens with
  | [] =>
      cases failed
      exact .inl rfl
  | token :: rest =>
      cases failed
      exact .inr ⟨[], token, rest, rfl, .nothing phrase, .unexpected token⟩

theorem close {token : Token} {rest : List Token} {inner : Reading Unit Formula}
    (opens : token.kind = .opening) (fails : FailsAwaiting .expression rest inner) :
    FailsAwaiting .secondary (token :: rest) (inner.close token.offset) := by
  intro failure failed
  rcases Reading.close_failed failed with innerFailed | ⟨formula, _, rfl⟩
  · exact (fails failure innerFailed).behind [token] fun before _ => Awaits.enclosed opens
  · exact .inr ⟨[], token, rest, rfl, .nothing .secondary, .unclosed opens⟩

theorem negation {token : Token} {rest : List Token} {operand : Reading Unit Formula}
    (negates : token.kind = .negation) (fails : FailsAwaiting .secondary rest operand) :
    FailsAwaiting .primary (token :: rest) (operand.apply construction.not) := by
  intro failure failed
  exact (fails failure (Reading.apply_failed failed)).behind [token]
    fun before _ => Awaits.negation negates

theorem secondary {token : Token} {rest : List Token} {reading : Reading Unit Formula}
    (plain : token.kind ≠ .negation) (fails : FailsAwaiting .secondary (token :: rest) reading) :
    FailsAwaiting .primary (token :: rest) reading := by
  intro failure failed
  apply (fails failure failed).behind []
  intro before inside awaits
  -- what is in front of the fault begins as all of the tokens do, so with no negation
  apply Awaits.secondary _ awaits
  intro first head
  obtain ⟨after, split⟩ := inside
  cases before with
  | nil => cases head
  | cons other before =>
      cases head
      cases split
      exact plain

theorem operand {strength : Strength} {tokens : List Token} {reading : Reading Unit Formula}
    (fails : FailsAwaiting strength.operand tokens reading) :
    FailsAwaiting strength.whole tokens reading := by
  intro failure failed
  exact (fails failure failed).behind [] fun before _ => Awaits.operand strength

theorem joined {strength : Strength} {token : Token} {connective : Connective}
    {tokens rest : List Token} {left : Formula} {operand : Reading Unit Formula}
    (joins : token.joins? strength = some connective)
    (earlier : Builds strength.whole tokens ⟨.ok left, token :: rest, ()⟩)
    (later : FailsAwaiting strength.operand rest operand) :
    FailsAwaiting strength.whole tokens (operand.apply (construction.binary connective left)) := by
  intro failure failed
  obtain ⟨front, split, derived⟩ := earlier left rfl
  have split : tokens = (front ++ [token]) ++ rest := by simpa using split
  rw [split]
  apply (later failure (Reading.apply_failed failed)).behind (front ++ [token])
  intro before _ awaits
  rw [List.append_assoc, List.singleton_append]
  exact awaits.joined joins derived

theorem read (phrase : Phrase) (tokens : List Token) :
    FailsAwaiting phrase tokens (construction.read phrase tokens ()) := by
  induction phrase, tokens using reading_induction with
  | nothing phrase =>
      rw [construction.read_nothing]
      exact refused phrase []
  | secondary token rest expression =>
      rw [construction.read_secondary]
      by_cases opens : token.kind = .opening
      · rw [if_pos opens]
        exact expression.close opens
      · rw [if_neg opens]
        cases named : token.name? with
        | none => exact refused .secondary (token :: rest)
        | some name =>
            intro failure failed
            cases failed
  | primary token rest operand plain =>
      rw [construction.read_primary]
      by_cases negates : token.kind = .negation
      · rw [if_pos negates]
        exact operand.negation negates
      · rw [if_neg negates]
        exact plain.secondary negates
  | whole strength tokens operand later =>
      rw [construction.read_whole]
      -- an operand is awaited behind a connective because what is in front of it has been built
      have built := builds_operand (builds_read strength.operand tokens)
      apply join_invariant_of_builds strength ?_ _ (construction.rest_read_suffix _ _ _) built
        operand.operand
      intro value token rest connective joins shorter earlier
      exact joined joins earlier (later rest shorter)

end FailsAwaiting

theorem Piece.exists_of_to_tokens {offset : Nat} {pieces : List Piece} {before after : List Token}
    {token : Token} (same : toTokens offset pieces = before ++ token :: after) :
    ∃ earlier piece later, pieces = earlier ++ piece :: later ∧ toTokens offset earlier = before ∧
      token = piece.lexeme.toToken (offset + byteLength (layOut earlier piece.gap)) := by
  induction before generalizing offset pieces with
  | nil =>
      cases pieces with
      | nil => cases same
      | cons piece pieces =>
          cases same
          exact ⟨[], piece, pieces, rfl, rfl, rfl⟩
  | cons first before induction =>
      cases pieces with
      | nil => cases same
      | cons piece pieces =>
          obtain ⟨rfl, others⟩ := List.cons.inj same
          obtain ⟨earlier, other, later, rfl, rfl, rfl⟩ := induction others
          refine ⟨piece :: earlier, other, later, rfl, rfl, ?_⟩
          have laid : layOut (piece :: earlier) other.gap =
              piece.characters ++ layOut earlier other.gap := by simp [layOut]
          rw [laid, byte_length_append, Nat.add_assoc]

theorem Decomposes.front {text ending : List Char} {earlier later : List Piece} {piece : Piece}
    (decomposes : Decomposes text (earlier ++ piece :: later) ending) :
    Decomposes (Piece.layOut earlier piece.gap) earlier piece.gap ∧
      text = Piece.layOut earlier piece.gap ++
        (piece.lexeme.spelling ++ Piece.layOut later ending) := by
  refine ⟨⟨rfl, ?lexemes, ?gaps, decomposes.gaps piece (by simp)⟩, ?written⟩
  case lexemes =>
    intro other member
    exact decomposes.lexemes other (by simp [member])
  case gaps =>
    intro other member
    exact decomposes.gaps other (by simp [member])
  case written =>
    rw [decomposes.written]
    simp [Piece.layOut, Piece.characters]

theorem literal_of_spells {kind : Kind} {spelling : List Char} (spells : Spells kind spelling) :
    String.ofList spelling ≠ "" ∧ (kind = .opening → String.ofList spelling = "(") := by
  cases spells with
  | opening => decide
  | _ => simp

theorem front_of_token {text : String} {before after : List Token} {token : Token}
    (cut : tokenize text = .ok (before ++ token :: after)) :
    ∃ front back, text = front ++ (token.literal ++ back) ∧ front.utf8ByteSize = token.offset ∧
      tokenize front = .ok before ∧ token.literal ≠ "" ∧
      (token.kind = .opening → token.literal = "(") := by
  obtain ⟨pieces, ending, decomposes, same⟩ := exists_pieces cut
  obtain ⟨earlier, piece, later, rfl, rfl, rfl⟩ := Piece.exists_of_to_tokens same.symm
  obtain ⟨front, written⟩ := decomposes.front
  refine ⟨String.ofList (Piece.layOut earlier piece.gap), String.ofList (Piece.layOut later ending),
    ?_, ?_, ?_, literal_of_spells (decomposes.lexemes piece (by simp))⟩
  · apply String.toList_injective
    simpa [Lexeme.toToken, Lexeme.literal] using written
  · rw [← byte_length_eq]
    exact (Nat.zero_add _).symm
  · rw [tokenize, String.toList_ofList]
    exact front.tokens 0

def Failure.Describes (text front back : String) : Failure → Prop
  | .unrecognised character _ =>
      (∃ rest, back = character.toString ++ rest) ∧ ∃ tokens, tokenize front = .ok tokens
  | .unexpected literal _ =>
      (∃ rest, back = literal ++ rest) ∧ Formula.ofText front false = .error .incomplete
  | .unclosed _ =>
      (∃ rest, back = "(" ++ rest) ∧ Formula.ofText front false = .error .incomplete
  | .trailing _ =>
      ∃ formula, Formula.ofText front false = .ok formula ∧ Formula.ofText text true = .ok formula
  | _ => False

/-- The text falls into two parts at the byte of the fault, which is one that begins a character. -/
structure Failure.Cuts (failure : Failure) (text front back : String) (offset : Nat) : Prop where
  placed : failure.offset? = some offset
  written : text = front ++ back
  boundary : front.utf8ByteSize = offset
  inside : back ≠ ""
  describes : failure.Describes text front back

theorem append_ne_empty {front : String} (back : String) (present : front ≠ "") :
    front ++ back ≠ "" := by
  intro same
  exact present (String.append_eq_empty_iff.1 same).1

theorem cuts_of_tokenize_error {text : String} {failure : Failure}
    (failed : tokenize text = .error failure) :
    ∃ front back offset, failure.Cuts text front back offset := by
  obtain ⟨front, character, back, tokens, written, cut, _, _, rfl⟩ :=
    (tokens_from_eq_error_iff 0 text.toList failure).1 failed
  refine ⟨String.ofList front, character.toString ++ String.ofList back, 0 + byteLength front, rfl,
    ?_, ?_, append_ne_empty _ ?_, ⟨_, rfl⟩, tokens, ?_⟩
  · apply String.toList_injective
    rw [written]
    simp
  · rw [← byte_length_eq, Nat.zero_add]
  · simp
  · rw [tokenize, String.toList_ofList]
    exact cut

theorem cuts_of_blames {text : String} {before after : List Token} {token : Token}
    {failure : Failure} (cut : tokenize text = .ok (before ++ token :: after))
    (awaits : Awaits .expression before) (blames : Blames failure token) :
    ∃ front back offset, failure.Cuts text front back offset := by
  obtain ⟨front, back, rfl, boundary, frontCut, present, parenthesis⟩ := front_of_token cut
  have inside := append_ne_empty back present
  have incomplete : Formula.ofText front false = .error .incomplete := by
    rw [Formula.of_text_of_tokenize frontCut, awaits.of_tokens]
  refine ⟨front, token.literal ++ back, token.offset, ?_⟩
  cases blames with
  | unexpected token => exact ⟨rfl, rfl, boundary, inside, ⟨back, rfl⟩, incomplete⟩
  | unclosed opens =>
      refine ⟨rfl, rfl, boundary, inside, ⟨back, ?_⟩, incomplete⟩
      rw [parenthesis opens]

theorem cuts_of_trailing {text : String} {tokens later : List Token} {token : Token}
    {formula : Formula} (cut : tokenize text = .ok tokens)
    (read : construction.read .expression tokens () = ⟨.ok formula, token :: later, ()⟩) :
    ∃ front back offset, (Failure.trailing token.offset).Cuts text front back offset := by
  obtain ⟨taken, split, derived⟩ := builds_read .expression tokens formula (by rw [read])
  have lenient := (of_tokens_eq_ok_iff tokens true formula).2 ⟨_, read, .inr rfl⟩
  rw [read] at split
  subst split
  obtain ⟨front, back, written, boundary, frontCut, present, _⟩ := front_of_token cut
  refine ⟨front, token.literal ++ back, token.offset, rfl, written, boundary,
    append_ne_empty back present, formula, ?_, ?_⟩
  · rw [Formula.of_text_of_tokenize frontCut]
    exact (of_tokens_iff_derives taken formula).2 derived
  · rw [Formula.of_text_of_tokenize cut]
    exact lenient

/-- A fault in a text is its end, or else it cuts the text in front of what it names. The text up to
there has tokens. If it is reading that finds the fault, it finds in them only that they end too
early, or the formula itself when the tokens behind it were too many. -/
theorem fault_cuts_text (text : String) (failure : Failure)
    (failed : Formula.ofText text false = .error failure) :
    failure = .incomplete ∨ ∃ front back offset, failure.Cuts text front back offset := by
  cases cut : tokenize text with
  | error fault =>
      rw [Formula.ofText, cut] at failed
      cases failed
      exact .inr (cuts_of_tokenize_error cut)
  | ok tokens =>
      rw [Formula.of_text_of_tokenize cut] at failed
      rcases of_tokens_eq_error failed with fault | ⟨formula, token, later, read, rfl⟩
      · rcases FailsAwaiting.read .expression tokens failure fault with
          ended | ⟨before, token, after, rfl, awaits, blames⟩
        · exact .inl ended
        · exact .inr (cuts_of_blames cut awaits blames)
      · exact .inr (cuts_of_trailing cut read)

theorem fault_cuts_text_unclosed :
    ∃ front back offset, (Failure.unclosed 7).Cuts "\u2003p ^ ((q) r" front back offset := by
  have failed : Formula.ofText "\u2003p ^ ((q) r" false = .error (.unclosed 7) := by
    with_unfolding_all rfl
  rcases fault_cuts_text _ _ failed with incomplete | cuts
  · cases incomplete
  · exact cuts

end Propositional
