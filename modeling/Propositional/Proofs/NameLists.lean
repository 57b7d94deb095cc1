import Propositional.Proofs.Lines

/-!
Lists of names laid out in a text, each name behind a gap of separators. Splitting gives back the
names, whatever the gaps are, and there is no other text: every one is laid out in this way, and so
its pieces, one behind the other, are what is left of it without the separators.
-/

namespace Propositional

set_option autoImplicit false

namespace CommandLine

structure SpacedName where
  gap : List Char
  name : List Char

namespace SpacedName

structure IsWellFormed (entry : SpacedName) : Prop where
  gap : ∀ character ∈ entry.gap, isSeparator character = true
  name : ∀ character ∈ entry.name, isSeparator character = false
  nonempty : entry.name ≠ []

def characters (entry : SpacedName) : List Char := entry.gap ++ entry.name

end SpacedName

/-- Entries that are laid out in a row, with a further gap behind them. The gap between two names
is not empty, while the first and the last may be. -/
structure Listing where
  entries : List SpacedName
  ending : List Char
  wellFormed : ∀ entry ∈ entries, entry.IsWellFormed
  apart : ∀ entry ∈ entries.tail, entry.gap ≠ []
  closing : ∀ character ∈ ending, isSeparator character = true

namespace Listing

def names (listing : Listing) : List String :=
  listing.entries.map fun entry => String.ofList entry.name

def characters (listing : Listing) : List Char :=
  listing.entries.flatMap SpacedName.characters ++ listing.ending

def text (listing : Listing) : String := String.ofList listing.characters

end Listing

theorem split_names_separators_append {separators : List Char} (back : List Char)
    (separate : ∀ character ∈ separators, isSeparator character = true) :
    splitNames (String.ofList (separators ++ back)) = splitNames (String.ofList back) := by
  induction separators with
  | nil => rfl
  | cons separator separators induction =>
      have nothing : splitNames (String.ofList []) = [] := by decide
      have here := split_names_separated [] (separators ++ back)
        (separate separator List.mem_cons_self)
      have rest := induction fun character member =>
        separate character (List.mem_cons_of_mem separator member)
      rw [nothing, rest] at here
      exact here

theorem split_names_of_name {name : List Char} (nonempty : name ≠ [])
    (free : ∀ character ∈ name, isSeparator character = false) :
    splitNames (String.ofList name) = [String.ofList name] := by
  unfold splitNames
  rw [String.toList_ofList, List.splitOnP_eq_singleton free]
  simp [nonempty]

theorem split_names_name_append {name back : List Char} (nonempty : name ≠ [])
    (free : ∀ character ∈ name, isSeparator character = false)
    (separated : ∀ character, back.head? = some character → isSeparator character = true) :
    splitNames (String.ofList (name ++ back)) =
      String.ofList name :: splitNames (String.ofList back) := by
  have alone := split_names_of_name nonempty free
  match back with
  | [] =>
      have nothing : splitNames (String.ofList []) = [] := by decide
      rw [List.append_nil, alone, nothing]
  | separator :: rest =>
      have separates := separated separator rfl
      have skipped : splitNames (String.ofList (separator :: rest)) =
          splitNames (String.ofList rest) := by
        have separate : ∀ character ∈ [separator], isSeparator character = true := by
          simpa using separates
        rw [← split_names_separators_append rest separate, List.singleton_append]
      rw [split_names_separated name rest separates, alone, skipped]
      rfl

namespace Listing

theorem head_of_tail {entries : List SpacedName} {ending : List Char}
    (wellFormed : ∀ entry ∈ entries, entry.IsWellFormed)
    (apart : ∀ entry ∈ entries, entry.gap ≠ [])
    (closing : ∀ character ∈ ending, isSeparator character = true) {character : Char}
    (first : (entries.flatMap SpacedName.characters ++ ending).head? = some character) :
    isSeparator character = true := by
  match entries with
  | [] => exact closing character (List.mem_of_head? first)
  | ⟨[], name⟩ :: entries => exact absurd rfl (apart ⟨[], name⟩ List.mem_cons_self)
  | ⟨separator :: gap, name⟩ :: entries =>
      cases first
      exact (wellFormed _ List.mem_cons_self).gap character List.mem_cons_self

theorem split_names_text (listing : Listing) : splitNames listing.text = listing.names := by
  obtain ⟨entries, ending, wellFormed, apart, closing⟩ := listing
  change splitNames (String.ofList (entries.flatMap SpacedName.characters ++ ending)) =
    entries.map fun entry => String.ofList entry.name
  induction entries with
  | nil =>
      rw [List.flatMap_nil, split_names_append_separators [] closing]
      decide
  | cons entry entries induction =>
      obtain ⟨here, later⟩ := List.forall_mem_cons.1 wellFormed
      have rest := induction later fun other member => apart other (List.mem_of_mem_tail member)
      rw [List.flatMap_cons, SpacedName.characters, List.append_assoc, List.append_assoc,
        split_names_separators_append _ here.gap,
        split_names_name_append here.nonempty here.name
          fun _ first => head_of_tail later apart closing first, rest]
      rfl

theorem exists_of_characters (written : List Char) :
    ∃ listing : Listing, listing.characters = written := by
  induction written with
  | nil => exact ⟨⟨[], [], by simp, by simp, by simp⟩, rfl⟩
  | cons character written induction =>
      obtain ⟨⟨entries, ending, wellFormed, apart, closing⟩, rfl⟩ := induction
      cases separates : isSeparator character with
      | true =>
          -- the separator makes the first gap longer
          match entries with
          | [] =>
              refine ⟨⟨[], character :: ending, by simp, by simp, ?_⟩, rfl⟩
              exact List.forall_mem_cons.2 ⟨separates, closing⟩
          | ⟨gap, name⟩ :: entries =>
              obtain ⟨here, later⟩ := List.forall_mem_cons.1 wellFormed
              have longer : (⟨character :: gap, name⟩ : SpacedName).IsWellFormed :=
                ⟨List.forall_mem_cons.2 ⟨separates, here.gap⟩, here.name, here.nonempty⟩
              exact ⟨⟨⟨character :: gap, name⟩ :: entries, ending,
                List.forall_mem_cons.2 ⟨longer, later⟩, apart, closing⟩, rfl⟩
      | false =>
          have alone : (⟨[], [character]⟩ : SpacedName).IsWellFormed :=
            ⟨by simp, by simpa using separates, by simp⟩
          match entries with
          | [] =>
              exact ⟨⟨[⟨[], [character]⟩], ending, by simpa using alone, by simp, closing⟩, rfl⟩
          | ⟨[], name⟩ :: entries =>
              -- the name begins further in front
              obtain ⟨here, later⟩ := List.forall_mem_cons.1 wellFormed
              have longer : (⟨[], character :: name⟩ : SpacedName).IsWellFormed :=
                ⟨here.gap, List.forall_mem_cons.2 ⟨separates, here.name⟩, by simp⟩
              exact ⟨⟨⟨[], character :: name⟩ :: entries, ending,
                List.forall_mem_cons.2 ⟨longer, later⟩, apart, closing⟩, rfl⟩
          | ⟨separator :: gap, name⟩ :: entries =>
              have allApart : ∀ entry ∈ (⟨separator :: gap, name⟩ : SpacedName) :: entries,
                  entry.gap ≠ [] := List.forall_mem_cons.2 ⟨by simp, apart⟩
              exact ⟨⟨⟨[], [character]⟩ :: ⟨separator :: gap, name⟩ :: entries, ending,
                List.forall_mem_cons.2 ⟨alone, wellFormed⟩, allApart, closing⟩, rfl⟩

theorem exists_of_text (written : String) : ∃ listing : Listing, listing.text = written := by
  obtain ⟨listing, spelled⟩ := exists_of_characters written.toList
  exact ⟨listing, by rw [text, spelled, String.ofList_toList]⟩

theorem filter_characters (listing : Listing) :
    listing.characters.filter (fun character => !isSeparator character) =
      listing.entries.flatMap SpacedName.name := by
  have dropped {separators : List Char}
      (separate : ∀ character ∈ separators, isSeparator character = true) :
      separators.filter (fun character => !isSeparator character) = [] := by
    rw [List.filter_eq_nil_iff]
    intro character member
    simp [separate character member]
  obtain ⟨entries, ending, wellFormed, _, closing⟩ := listing
  rw [characters, List.filter_append, dropped closing, List.append_nil, List.filter_flatMap]
  apply List.flatMap_congr
  intro entry member
  obtain ⟨gap, name, _⟩ := wellFormed entry member
  rw [SpacedName.characters, List.filter_append, dropped gap, List.nil_append, List.filter_eq_self]
  intro character inside
  simp [name character inside]

end Listing

/-- Splitting gives the names of a listing, and every text is a listing. So the pieces of a text
are names that are not empty and have no separators in them, and they are joined to the text without
its separators. -/
theorem split_names_undoes_joining :
    (∀ listing : Listing, splitNames listing.text = listing.names) ∧
    (∀ text : String, ∃ listing : Listing, listing.text = text) ∧
    ∀ text : String,
      (∀ name ∈ splitNames text,
        name ≠ "" ∧ ∀ character ∈ name.toList, isSeparator character = false) ∧
      String.join (splitNames text) =
        String.ofList (text.toList.filter fun character => !isSeparator character) := by
  refine ⟨Listing.split_names_text, Listing.exists_of_text, ?_⟩
  intro text
  obtain ⟨listing, rfl⟩ := Listing.exists_of_text text
  rw [listing.split_names_text]
  constructor
  · intro name member
    obtain ⟨entry, inside, rfl⟩ := List.mem_map.1 member
    have valid := listing.wellFormed entry inside
    refine ⟨?_, by simpa using valid.name⟩
    intro empty
    exact valid.nonempty (by simpa using congrArg String.toList empty)
  · rw [Listing.text, String.toList_ofList, listing.filter_characters]
    apply String.toList_injective
    rw [Listing.names, String.toList_join, List.flatMap_map, String.toList_ofList]
    simp

/-- Gaps of several separators, and separators at both ends. -/
example : splitNames " ,p,, q\t\u2003r," = ["p", "q", "r"] := by decide +kernel

end CommandLine

end Propositional
