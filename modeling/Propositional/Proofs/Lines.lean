import Mathlib.Data.List.TakeWhile
import Propositional.CommandLine.Dialogue
import Propositional.CommandLine.Names
import Propositional.Proofs.Continuation

/-!
Lines of input. A text without a line feed comes back from the bytes of its line, except that the
carriage returns at its end are gone. Blanks at the end of a text make no difference to its tokens,
nor to their places or those of a fault, and separators at the end of a list of names make none to
the names.
-/

namespace Propositional

set_option autoImplicit false

def utf8Bytes (text : String) : List UInt8 := text.toUTF8.data.toList

theorem utf8_bytes_eq (text : String) :
    utf8Bytes text = text.toList.flatMap String.utf8EncodeChar := by
  unfold utf8Bytes
  conv => lhs; rw [← String.ofList_toList (s := text)]
  rw [String.toUTF8_eq_toByteArray, String.toByteArray_ofList, List.utf8Encode,
    List.toList_data_toByteArray]

theorem utf8_bytes_append (front back : String) :
    utf8Bytes (front ++ back) = utf8Bytes front ++ utf8Bytes back := by
  rw [utf8_bytes_eq, utf8_bytes_eq, utf8_bytes_eq, String.toList_append, List.flatMap_append]

theorem of_utf8_bytes (text : String) :
    String.fromUTF8? ⟨(utf8Bytes text).toArray⟩ = some text := by
  have bytes : (⟨(utf8Bytes text).toArray⟩ : ByteArray) = text.toByteArray := rfl
  rw [bytes, String.fromUTF8?, dif_pos text.isValidUTF8]
  rfl

theorem high_bytes {character : Char} (high : 128 ≤ character.val.toNat) :
    ∀ byte ∈ String.utf8EncodeChar character, 128 ≤ byte.toNat := by
  have notSingle : ¬ character.val.toNat ≤ 127 := by omega
  simp only [String.utf8EncodeChar, if_neg notSingle]
  -- the forms of two, three and four bytes
  split
  next => simp [UInt8.toNat_ofNat']; omega
  next =>
    split
    next => simp [UInt8.toNat_ofNat']; omega
    next => simp [UInt8.toNat_ofNat']; omega

/-- In UTF-8 the byte of a line feed is a part of no other character. -/
theorem eq_of_feed_mem {character : Char} (member : 10 ∈ String.utf8EncodeChar character) :
    character = '\n' := by
  by_cases high : 128 ≤ character.val.toNat
  · exact absurd (high_bytes high 10 member) (by decide)
  · have single : String.utf8EncodeChar character = [UInt8.ofNat character.val.toNat] := by
      simp only [String.utf8EncodeChar]
      rw [if_pos (by omega)]
    rw [single, List.mem_singleton] at member
    have values := congrArg UInt8.toNat member
    rw [UInt8.toNat_ofNat', Nat.mod_eq_of_lt (by omega)] at values
    exact Char.toNat_inj.1 values.symm

theorem feed_not_mem_utf8_bytes {text : String} (oneLine : '\n' ∉ text.toList) :
    10 ∉ utf8Bytes text := by
  rw [utf8_bytes_eq, List.mem_flatMap]
  rintro ⟨character, inside, member⟩
  rw [eq_of_feed_mem member] at inside
  exact oneLine inside

theorem take_line_of_text {text : String} (oneLine : '\n' ∉ text.toList) (rest : List UInt8) :
    takeLine (utf8Bytes (text ++ "\n") ++ rest) = (utf8Bytes (text ++ "\n"), rest) := by
  have feed : utf8Bytes "\n" = [10] := by decide
  have before : ∀ byte ∈ utf8Bytes text, (decide (byte ≠ 10)) = true := by
    intro byte member
    rw [decide_eq_true_eq]
    rintro rfl
    exact feed_not_mem_utf8_bytes oneLine member
  rw [utf8_bytes_append, feed, List.append_assoc, List.singleton_append]
  unfold takeLine
  rw [List.span_eq_takeWhile_dropWhile, List.takeWhile_append_of_pos before,
    List.dropWhile_append_of_pos before]
  simp

/-- What a line says of a text: all but carriage returns at its end. -/
theorem line_text_of_text {text : String} (oneLine : '\n' ∉ text.toList) :
    ∃ line ending, lineText? (utf8Bytes (text ++ "\n")) = some (String.ofList line) ∧
      text.toList = line ++ ending ∧ ∀ character ∈ ending, character = '\r' := by
  let isEnd (character : Char) : Bool := character == '\n' || character == '\r'
  refine ⟨(text.toList.reverse.dropWhile isEnd).reverse,
    (text.toList.reverse.takeWhile isEnd).reverse, ?read, ?split, ?ends⟩
  case read =>
    have dropped : (text ++ "\n").toList.reverse.dropWhile isEnd =
        text.toList.reverse.dropWhile isEnd := by
      rw [String.toList_append, List.reverse_append]
      rfl
    rw [lineText?, of_utf8_bytes, Option.map_some]
    exact congrArg (fun line => some (String.ofList line.reverse)) dropped
  case split =>
    rw [← List.reverse_append, List.takeWhile_append_dropWhile, List.reverse_reverse]
  case ends =>
    intro character member
    rw [List.mem_reverse] at member
    have isEnding := List.mem_takeWhile_imp member
    have inside : character ∈ text.toList :=
      List.mem_reverse.1 ((List.takeWhile_sublist isEnd).subset member)
    rcases Bool.or_eq_true_iff.1 isEnding with feed | carriage
    · rw [beq_iff_eq] at feed
      rw [feed] at inside
      exact absurd inside oneLine
    · exact beq_iff_eq.1 carriage

theorem blank_of_returns {ending : List Char} (returns : ∀ character ∈ ending, character = '\r') :
    ∀ character ∈ ending, isBlank character = true := by
  intro character member
  rw [returns character member]
  decide

/-- Blanks do not turn what stands in front of them into a lexeme, not even into an arrow. -/
theorem first_lexeme_before_blanks {character : Char} {rest blanks : List Char}
    (absent : firstLexeme? (character :: rest) = none)
    (blank : ∀ character ∈ blanks, isBlank character = true) :
    firstLexeme? (character :: (rest ++ blanks)) = none := by
  obtain ⟨untried, notLetter⟩ := (first_lexeme_eq_none_iff character rest).1 absent
  rw [first_lexeme_eq_none_iff]
  refine ⟨?_, notLetter⟩
  intro lexeme member starts
  have spells := (is_lexeme_iff_spells lexeme).1 (.inl member)
  have extended : character :: rest <+: character :: (rest ++ blanks) := List.prefix_append _ blanks
  rcases List.prefix_or_prefix_of_prefix starts extended with shorter | ⟨behind, spelled⟩
  · exact untried lexeme member shorter
  · -- the lexeme would go on with blanks, which it has none of
    rw [← spelled] at starts
    have behindBlanks : behind <+: blanks := (List.prefix_append_right_inj (character :: rest)).1 starts
    have none : behind = [] := by
      apply List.eq_nil_iff_forall_not_mem.2
      intro other inside
      have isBlank := blank other (behindBlanks.subset inside)
      rw [not_blank_of_spells spells other (spelled ▸ List.mem_append_right _ inside)] at isBlank
      cases isBlank
    rw [none, List.append_nil] at spelled
    exact untried lexeme member (spelled ▸ List.prefix_rfl)

theorem tokens_from_append_blanks (offset : Nat) (text : List Char) {blanks : List Char}
    (blank : ∀ character ∈ blanks, isBlank character = true) :
    tokensFrom offset (text ++ blanks) = tokensFrom offset text := by
  cases cut : tokensFrom offset text with
  | ok tokens =>
      have none := tokens_from_gap (offset + byteLength text) blanks [] blank
      rw [List.append_nil, tokensFrom] at none
      rw [tokens_from_append blanks cut, none]
      simp [Except.map]
  | error failure =>
      obtain ⟨front, character, back, tokens, rfl, frontCut, notBlank, absent, rfl⟩ :=
        (tokens_from_eq_error_iff offset text failure).1 cut
      rw [List.append_assoc, tokens_from_eq_error_iff]
      exact ⟨front, character, back ++ blanks, tokens, rfl, frontCut, notBlank,
        first_lexeme_before_blanks absent blank, rfl⟩

namespace CommandLine

theorem split_names_separated (front back : List Char) {separator : Char}
    (separates : isSeparator separator = true) :
    splitNames (String.ofList (front ++ separator :: back)) =
      splitNames (String.ofList front) ++ splitNames (String.ofList back) := by
  unfold splitNames
  rw [String.toList_ofList, String.toList_ofList, String.toList_ofList,
    List.splitOnP_append_cons front back separates, List.filter_append, List.map_append]

theorem split_names_append_separators (text : List Char) {separators : List Char}
    (separate : ∀ character ∈ separators, isSeparator character = true) :
    splitNames (String.ofList (text ++ separators)) = splitNames (String.ofList text) := by
  induction separators generalizing text with
  | nil => rw [List.append_nil]
  | cons separator separators induction =>
      have rest := induction [] fun character member =>
        separate character (List.mem_cons_of_mem separator member)
      rw [List.nil_append] at rest
      have nothing : splitNames (String.ofList []) = [] := by decide
      rw [split_names_separated text separators (separate separator List.mem_cons_self), rest,
        nothing, List.append_nil]

end CommandLine

end Propositional
