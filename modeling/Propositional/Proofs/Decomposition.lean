import Propositional.Proofs.Lexing

/-!
The language of the lexer. A text has tokens exactly when it decomposes into lexemes with blanks
around them. A gap ends at the first character that is not blank, and the lexeme behind it is the
only one with which the text goes on, so no text decomposes in two ways. From this it follows that
the blanks separate nothing that would not be separate without them.
-/

namespace Propositional

set_option autoImplicit false

/-- The lexemes of the language one by one: how they are written and of which kind they are. -/
inductive Spells : Kind → List Char → Prop where
  | iff : Spells (.joining .iff) ['<', '-', '>']
  | implies : Spells (.joining .implies) ['-', '>']
  | and : Spells (.joining .and) ['^']
  | or : Spells (.joining .or) ['v']
  | negation : Spells .negation ['~']
  | opening : Spells .opening ['(']
  | closing : Spells .closing [')']
  | letter {name : Char} (least : 'a' ≤ name) (greatest : name ≤ 'z') (other : name ≠ 'v') :
      Spells .letter [name]

theorem is_lexeme_iff_spells (lexeme : Lexeme) :
    IsLexeme lexeme ↔ Spells lexeme.kind lexeme.spelling := by
  constructor
  · rintro (member | ⟨name, valid, rfl⟩)
    · simp only [fixedLexemes, List.mem_cons, List.not_mem_nil, or_false] at member
      rcases member with rfl | rfl | rfl | rfl | rfl | rfl | rfl <;> constructor
    · obtain ⟨least, greatest, other⟩ := (is_variable_iff name).1 valid
      exact .letter least greatest other
  · obtain ⟨kind, spelling⟩ := lexeme
    intro spells
    cases spells with
    | letter least greatest other =>
        exact .inr ⟨_, (is_variable_iff _).2 ⟨least, greatest, other⟩, rfl⟩
    | _ => exact .inl (by decide)

theorem not_blank_of_spells {kind : Kind} {spelling : List Char} (spells : Spells kind spelling) :
    ∀ character ∈ spelling, isBlank character = false := by
  have none : (spelling.all fun character => !isBlank character) = true := by
    cases spells with
    | letter least greatest other =>
        have notBlank := not_blank_of_is_letter _ (by simpa [isLetter] using ⟨least, greatest⟩)
        simp [notBlank]
    | _ => decide
  intro character member
  simpa using List.all_eq_true.1 none character member

theorem byte_length_eq (characters : List Char) :
    byteLength characters = (String.ofList characters).utf8ByteSize := by
  induction characters with
  | nil => rfl
  | cons character characters induction =>
      rw [byteLength, induction, String.ofList_cons, String.utf8ByteSize_append,
        String.utf8ByteSize_singleton]

/-- The text is written by lexemes, each behind a gap of blanks, and by blanks behind the last. -/
structure Decomposes (text : List Char) (pieces : List Piece) (ending : List Char) : Prop where
  written : text = Piece.layOut pieces ending
  lexemes : ∀ piece ∈ pieces, Spells piece.lexeme.kind piece.lexeme.spelling
  gaps : ∀ piece ∈ pieces, ∀ character ∈ piece.gap, isBlank character
  blank : ∀ character ∈ ending, isBlank character

def withoutBlanks (text : List Char) : List Char := text.filter fun character => !isBlank character

namespace Piece

/-- A token for each lexeme, with its kind, with what is written and with the count of bytes that
the text has in front of it. -/
def marked (pieces : List Piece) : List Token :=
  pieces.mapIdx fun index piece =>
    ⟨piece.lexeme.kind, String.ofList piece.lexeme.spelling,
      (String.ofList ((pieces.take index).flatMap characters ++ piece.gap)).utf8ByteSize⟩

theorem to_tokens_eq (offset : Nat) (pieces : List Piece) :
    toTokens offset pieces =
      pieces.mapIdx fun index piece =>
        piece.lexeme.toToken
          (offset + byteLength ((pieces.take index).flatMap characters ++ piece.gap)) := by
  induction pieces generalizing offset with
  | nil => rfl
  | cons piece pieces induction =>
      simp only [toTokens, List.mapIdx_cons, induction, List.take_zero, List.flatMap_nil,
        List.nil_append, List.take_succ_cons, List.flatMap_cons, List.append_assoc,
        byte_length_append piece.characters, Nat.add_assoc]

theorem to_tokens_start (pieces : List Piece) : toTokens 0 pieces = marked pieces := by
  rw [to_tokens_eq]
  simp only [Nat.zero_add, byte_length_eq]
  rfl

theorem marks_to_tokens (offset : Nat) (pieces : List Piece) :
    (toTokens offset pieces).map (fun token => (token.kind, token.literal)) =
      pieces.map fun piece => (piece.lexeme.kind, piece.lexeme.literal) := by
  induction pieces generalizing offset with
  | nil => rfl
  | cons piece pieces induction => rw [toTokens, List.map_cons, induction]; rfl

theorem literals_to_tokens (offset : Nat) (pieces : List Piece) :
    literals (toTokens offset pieces) =
      String.ofList (pieces.flatMap fun piece => piece.lexeme.spelling) := by
  have joined : (toTokens offset pieces).map Token.literal =
      pieces.map fun piece => String.ofList piece.lexeme.spelling := by
    have marks := congrArg (List.map Prod.snd) (marks_to_tokens offset pieces)
    rw [List.map_map, List.map_map] at marks
    exact marks
  apply String.toList_injective
  rw [literals, joined, String.toList_join, String.toList_ofList, List.flatMap_map]
  simp only [String.toList_ofList]

end Piece

namespace Decomposes

theorem tail {text : List Char} {piece : Piece} {pieces : List Piece} {ending : List Char}
    (decomposes : Decomposes text (piece :: pieces) ending) :
    Decomposes (Piece.layOut pieces ending) pieces ending where
  written := rfl
  lexemes other member := decomposes.lexemes other (by simp [member])
  gaps other member := decomposes.gaps other (by simp [member])
  blank := decomposes.blank

theorem cons {text : List Char} {pieces : List Piece} {ending : List Char} (piece : Piece)
    (gap : ∀ character ∈ piece.gap, isBlank character)
    (spells : Spells piece.lexeme.kind piece.lexeme.spelling)
    (decomposes : Decomposes text pieces ending) :
    Decomposes (piece.characters ++ text) (piece :: pieces) ending where
  written := by
    rw [decomposes.written, Piece.layOut, Piece.layOut, List.flatMap_cons, List.append_assoc]
  lexemes := by
    intro other member
    rcases List.mem_cons.1 member with rfl | member
    · exact spells
    · exact decomposes.lexemes other member
  gaps := by
    intro other member
    rcases List.mem_cons.1 member with rfl | member
    · exact gap
    · exact decomposes.gaps other member
  blank := decomposes.blank

/-- A blank in front goes into the gap of the first piece, or into the ending if there is none. -/
theorem exists_behind_blank {text : List Char} {pieces : List Piece} {ending : List Char}
    {character : Char} (decomposes : Decomposes text pieces ending)
    (blank : isBlank character) :
    ∃ widened widenedEnding, Decomposes (character :: text) widened widenedEnding ∧
      ∀ offset, Piece.toTokens offset widened =
        Piece.toTokens (offset + character.utf8Size) pieces := by
  have widen (blanks : List Char) (same : ∀ other ∈ blanks, isBlank other) :
      ∀ other ∈ character :: blanks, isBlank other := by
    intro other member
    rcases List.mem_cons.1 member with rfl | member
    · exact blank
    · exact same other member
  match pieces with
  | [] =>
      refine ⟨[], character :: ending, ⟨?_, by simp, by simp, ?_⟩, fun offset => rfl⟩
      · rw [decomposes.written]
        rfl
      · exact widen ending decomposes.blank
  | piece :: pieces =>
      have gap := widen piece.gap (decomposes.gaps piece (by simp))
      have widened := decomposes.tail.cons ⟨character :: piece.gap, piece.lexeme⟩ gap
        (decomposes.lexemes piece (by simp))
      refine ⟨⟨character :: piece.gap, piece.lexeme⟩ :: pieces, ending, ?_, ?_⟩
      · rw [decomposes.written, Piece.layOut, List.flatMap_cons, List.append_assoc]
        exact widened
      · intro offset
        simp only [Piece.toTokens, Piece.characters, List.cons_append, byteLength, Nat.add_assoc]

theorem tokens {text : List Char} {pieces : List Piece} {ending : List Char}
    (decomposes : Decomposes text pieces ending) (offset : Nat) :
    tokensFrom offset text = .ok (Piece.toTokens offset pieces) := by
  rw [decomposes.written]
  apply tokens_from_lay_out offset pieces ending _ decomposes.blank
  intro piece member
  exact ⟨decomposes.gaps piece member,
    (is_lexeme_iff_spells piece.lexeme).2 (decomposes.lexemes piece member)⟩

end Decomposes

theorem exists_pieces {offset : Nat} {text : List Char} {tokens : List Token}
    (cut : tokensFrom offset text = .ok tokens) :
    ∃ pieces ending, Decomposes text pieces ending ∧ tokens = Piece.toTokens offset pieces := by
  induction text using text_induction generalizing offset tokens with
  | nothing =>
      rw [tokensFrom] at cut
      cases cut
      exact ⟨[], [], ⟨rfl, by simp, by simp, by simp⟩, rfl⟩
  | blank character rest blank induction =>
      rw [tokens_from_blank offset rest blank] at cut
      obtain ⟨pieces, ending, decomposes, rfl⟩ := induction cut
      obtain ⟨widened, widenedEnding, widenedDecomposes, same⟩ :=
        decomposes.exists_behind_blank blank
      exact ⟨widened, widenedEnding, widenedDecomposes, (same offset).symm⟩
  | refused character rest notBlank absent =>
      rw [tokens_from_refused offset notBlank absent] at cut
      cases cut
  | lexeme lexeme rest valid induction =>
      obtain ⟨others, later, rfl⟩ := tokens_from_lexeme_eq_ok valid cut
      obtain ⟨pieces, ending, decomposes, rfl⟩ := induction later
      have whole := decomposes.cons ⟨[], lexeme⟩ (by simp) ((is_lexeme_iff_spells lexeme).1 valid)
      rw [Piece.characters, List.nil_append] at whole
      exact ⟨⟨[], lexeme⟩ :: pieces, ending, whole, rfl⟩

theorem gap_and_lexeme {gap : List Char} {lexeme : Lexeme} (suffix : List Char)
    (blank : ∀ character ∈ gap, isBlank character)
    (spells : Spells lexeme.kind lexeme.spelling) :
    (gap ++ (lexeme.spelling ++ suffix)).takeWhile isBlank = gap ∧
      (gap ++ (lexeme.spelling ++ suffix)).dropWhile isBlank = lexeme.spelling ++ suffix := by
  obtain ⟨first, rest, spelled, notBlank⟩ :=
    spelling_of_is_lexeme lexeme ((is_lexeme_iff_spells lexeme).2 spells)
  rw [List.takeWhile_append_of_pos blank, List.dropWhile_append_of_pos blank, spelled]
  simp [notBlank]

theorem piece_unique {piece other : Piece} {suffix otherSuffix : List Char}
    (gap : ∀ character ∈ piece.gap, isBlank character)
    (spells : Spells piece.lexeme.kind piece.lexeme.spelling)
    (otherGap : ∀ character ∈ other.gap, isBlank character)
    (otherSpells : Spells other.lexeme.kind other.lexeme.spelling)
    (same : piece.characters ++ suffix = other.characters ++ otherSuffix) :
    piece = other ∧ suffix = otherSuffix := by
  simp only [Piece.characters, List.append_assoc] at same
  obtain ⟨gapTaken, gapDropped⟩ := gap_and_lexeme suffix gap spells
  obtain ⟨otherTaken, otherDropped⟩ := gap_and_lexeme otherSuffix otherGap otherSpells
  have gaps : piece.gap = other.gap := by rw [← gapTaken, same, otherTaken]
  have behind : piece.lexeme.spelling ++ suffix = other.lexeme.spelling ++ otherSuffix := by
    rw [← gapDropped, same, otherDropped]
  have found := first_lexeme_of_is_lexeme piece.lexeme
    ((is_lexeme_iff_spells piece.lexeme).2 spells) suffix
  have otherFound := first_lexeme_of_is_lexeme other.lexeme
    ((is_lexeme_iff_spells other.lexeme).2 otherSpells) otherSuffix
  rw [behind, otherFound] at found
  have lexemes : piece.lexeme = other.lexeme := (Option.some.inj found).symm
  rw [lexemes] at behind
  refine ⟨?_, List.append_cancel_left behind⟩
  cases piece
  cases other
  cases gaps
  cases lexemes
  rfl

theorem not_blank_of_piece {piece : Piece} {suffix ending : List Char}
    (spells : Spells piece.lexeme.kind piece.lexeme.spelling)
    (blank : ∀ character ∈ ending, isBlank character) : ending ≠ piece.characters ++ suffix := by
  intro same
  obtain ⟨first, rest, spelled, notBlank⟩ :=
    spelling_of_is_lexeme piece.lexeme ((is_lexeme_iff_spells piece.lexeme).2 spells)
  have inside : isBlank first := blank first (by simp [same, Piece.characters, spelled])
  rw [notBlank] at inside
  cases inside

theorem decomposes_unique {text : List Char} {pieces otherPieces : List Piece}
    {ending otherEnding : List Char} (first : Decomposes text pieces ending)
    (second : Decomposes text otherPieces otherEnding) :
    pieces = otherPieces ∧ ending = otherEnding := by
  induction pieces generalizing text otherPieces with
  | nil =>
      have written := first.written.symm.trans second.written
      cases otherPieces with
      | nil => exact ⟨rfl, written⟩
      | cons other others =>
          simp only [Piece.layOut, List.flatMap_nil, List.nil_append, List.flatMap_cons,
            List.append_assoc] at written
          exact absurd written (not_blank_of_piece (second.lexemes other (by simp)) first.blank)
  | cons piece pieces induction =>
      have written := first.written.symm.trans second.written
      cases otherPieces with
      | nil =>
          simp only [Piece.layOut, List.flatMap_nil, List.nil_append, List.flatMap_cons,
            List.append_assoc] at written
          exact absurd written.symm
            (not_blank_of_piece (first.lexemes piece (by simp)) second.blank)
      | cons other others =>
          simp only [Piece.layOut, List.flatMap_cons, List.append_assoc] at written
          obtain ⟨same, later⟩ := piece_unique (first.gaps piece (by simp))
            (first.lexemes piece (by simp)) (second.gaps other (by simp))
            (second.lexemes other (by simp)) written
          have rest : Piece.layOut pieces ending = Piece.layOut others otherEnding := later
          have secondTail := second.tail
          rw [← rest] at secondTail
          obtain ⟨pieces, endings⟩ := induction first.tail secondTail
          exact ⟨by rw [same, pieces], endings⟩

namespace Decomposes

theorem without_blanks {text : List Char} {pieces : List Piece} {ending : List Char}
    (decomposes : Decomposes text pieces ending) :
    withoutBlanks text = pieces.flatMap fun piece => piece.lexeme.spelling := by
  have dropped (blanks : List Char) (blank : ∀ character ∈ blanks, isBlank character) :
      withoutBlanks blanks = [] := by
    apply List.filter_eq_nil_iff.2
    intro character member
    simp [blank character member]
  have kept : ∀ piece ∈ pieces, withoutBlanks piece.characters = piece.lexeme.spelling := by
    intro piece member
    have spelling : withoutBlanks piece.lexeme.spelling = piece.lexeme.spelling := by
      apply List.filter_eq_self.2
      intro character inside
      simp [not_blank_of_spells (decomposes.lexemes piece member) character inside]
    have gap := dropped piece.gap (decomposes.gaps piece member)
    unfold withoutBlanks at gap spelling ⊢
    rw [Piece.characters, List.filter_append, gap, spelling, List.nil_append]
  have last := dropped ending decomposes.blank
  unfold withoutBlanks at kept last ⊢
  rw [decomposes.written, Piece.layOut, List.filter_append, last, List.append_nil,
    List.filter_flatMap, List.flatMap_def, List.flatMap_def, List.map_congr_left kept]

theorem compact {text : List Char} {pieces : List Piece} {ending : List Char}
    (decomposes : Decomposes text pieces ending) :
    Decomposes (withoutBlanks text) (pieces.map fun piece => ⟨[], piece.lexeme⟩) [] where
  written := by
    rw [decomposes.without_blanks, Piece.layOut, List.flatMap_map, List.append_nil]
    rfl
  lexemes piece member := by
    obtain ⟨original, inside, rfl⟩ := List.mem_map.1 member
    exact decomposes.lexemes original inside
  gaps piece member := by
    obtain ⟨original, inside, rfl⟩ := List.mem_map.1 member
    simp
  blank := by simp

end Decomposes

theorem lexemes_of_without_blanks {text other : List Char} {pieces otherPieces : List Piece}
    {ending otherEnding : List Char} (first : Decomposes text pieces ending)
    (second : Decomposes other otherPieces otherEnding)
    (same : withoutBlanks text = withoutBlanks other) :
    pieces.map Piece.lexeme = otherPieces.map Piece.lexeme := by
  have secondCompact := second.compact
  rw [← same] at secondCompact
  have compacts := congrArg (List.map Piece.lexeme)
    (decomposes_unique first.compact secondCompact).1
  rw [List.map_map, List.map_map] at compacts
  exact compacts

/-- A text has tokens exactly when it decomposes, and they are the marks of its pieces. It
decomposes in one way at most. The literals of the tokens spell the text without its blanks, and
texts which differ in blanks only have the same kinds and literals. -/
theorem tokenize_iff_decomposes (text : String) :
    (∀ tokens, tokenize text = .ok tokens ↔
      ∃ pieces ending, Decomposes text.toList pieces ending ∧ tokens = Piece.marked pieces) ∧
    (∀ pieces ending otherPieces otherEnding, Decomposes text.toList pieces ending →
      Decomposes text.toList otherPieces otherEnding →
      pieces = otherPieces ∧ ending = otherEnding) ∧
    (∀ tokens, tokenize text = .ok tokens →
      literals tokens = String.ofList (withoutBlanks text.toList)) ∧
    ∀ other tokens otherTokens, tokenize text = .ok tokens → tokenize other = .ok otherTokens →
      withoutBlanks text.toList = withoutBlanks other.toList →
      tokens.map (fun token => (token.kind, token.literal)) =
        otherTokens.map fun token => (token.kind, token.literal) := by
  refine ⟨?_, ?_, ?_, ?_⟩
  · intro tokens
    constructor
    · intro cut
      obtain ⟨pieces, ending, decomposes, rfl⟩ := exists_pieces cut
      exact ⟨pieces, ending, decomposes, Piece.to_tokens_start pieces⟩
    · rintro ⟨pieces, ending, decomposes, rfl⟩
      rw [← Piece.to_tokens_start]
      exact decomposes.tokens 0
  · intro pieces ending otherPieces otherEnding first second
    exact decomposes_unique first second
  · intro tokens cut
    obtain ⟨pieces, ending, decomposes, rfl⟩ := exists_pieces cut
    rw [Piece.literals_to_tokens, decomposes.without_blanks]
  · intro other tokens otherTokens cut otherCut same
    obtain ⟨pieces, ending, decomposes, rfl⟩ := exists_pieces cut
    obtain ⟨otherPieces, otherEnding, otherDecomposes, rfl⟩ := exists_pieces otherCut
    have lexemes := lexemes_of_without_blanks decomposes otherDecomposes same
    have marks := congrArg
      (List.map fun lexeme : Lexeme => (lexeme.kind, lexeme.literal)) lexemes
    rw [List.map_map, List.map_map] at marks
    rw [Piece.marks_to_tokens, Piece.marks_to_tokens]
    exact marks

/-- Offsets count bytes: an em space takes three of them and a no-break space two. -/
example : tokenize "\u2003p\u00a0<->(q" =
    .ok [⟨.letter, "p", 3⟩, ⟨.joining .iff, "<->", 6⟩, ⟨.opening, "(", 9⟩,
      ⟨.letter, "q", 10⟩] := by
  cbv

end Propositional
