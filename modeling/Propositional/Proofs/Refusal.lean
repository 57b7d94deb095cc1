import Propositional.Proofs.Declaration

/-!
Which names are refused, and how. Names are declared one after the other, so the failure is that of
the first name that offends, because it names no variable or because it stands earlier in the list.
How many names there are is looked at before any of them.
-/

namespace Propositional

set_option autoImplicit false

namespace Variables

/-- The name is a single character, and the character may be a variable. -/
def IsVariableName (name : String) : Prop :=
  ∃ character : Variable, name = character.toString ∧ isVariable character = true

/-- The name at the index is none of a variable, or it is the same as an earlier one. -/
def Offends (names : List String) (index : Nat) : Prop :=
  ∃ name, names[index]? = some name ∧ (¬ IsVariableName name ∨ name ∈ names.take index)

/-- The failure with which a name is refused behind earlier ones. -/
inductive Refuses (earlier : List String) : String → Failure → Prop where
  | reserved : Refuses earlier "v" .reservedName
  | invalid {name : String} (other : ∀ letter : Char, 'a' ≤ letter → letter ≤ 'z' →
      name ≠ letter.toString) : Refuses earlier name (.invalidName name)
  | repeated {character : Variable} (valid : isVariable character = true)
      (member : character.toString ∈ earlier) :
      Refuses earlier character.toString (.duplicateName character)

theorem named_reserved : named "v" = .error .reservedName := rfl

theorem named_of_other {name : String}
    (other : ∀ letter : Char, 'a' ≤ letter → letter ≤ 'z' → name ≠ letter.toString) :
    named name = .error (.invalidName name) := by
  unfold named
  split
  next _ character single =>
    have spelled : name = character.toString := by
      apply String.toList_injective
      rw [single]
      exact (String.toList_singleton character).symm
    have notReserved : character ≠ reservedLetter := by
      rintro rfl
      exact other _ (by decide) (by decide) spelled
    have notVariable : ¬ isVariable character = true := by
      intro valid
      obtain ⟨least, greatest, _⟩ := (is_variable_iff character).1 valid
      exact other character least greatest spelled
    rw [if_neg notReserved, if_neg notVariable]
  next => rfl

theorem reserved_or_variable_or_other (name : String) :
    name = "v" ∨ IsVariableName name ∨
      ∀ letter : Char, 'a' ≤ letter → letter ≤ 'z' → name ≠ letter.toString := by
  by_cases single : ∃ letter : Char, 'a' ≤ letter ∧ letter ≤ 'z' ∧ name = letter.toString
  · obtain ⟨letter, least, greatest, rfl⟩ := single
    by_cases reserved : letter = 'v'
    · exact .inl (by rw [reserved]; rfl)
    · exact .inr (.inl ⟨letter, rfl, (is_variable_iff letter).2 ⟨least, greatest, reserved⟩⟩)
  · refine .inr (.inr ?_)
    intro letter least greatest spelled
    exact single ⟨letter, least, greatest, spelled⟩

theorem append_eq_error_iff (domain : Variables) (name : Variable) (failure : Failure) :
    domain.append name = .error failure ↔
      name ∈ domain.names ∧ failure = .duplicateName name := by
  unfold append
  by_cases member : name ∈ domain.names
  · simp [member, eq_comm]
  · simp [member]

def declareNext (domain : Variables) (name : String) : Except Failure Variables :=
  (named name).bind domain.append

def texts (domain : Variables) : List String := domain.names.map Char.toString

theorem mem_texts (domain : Variables) (name : Variable) :
    name.toString ∈ domain.texts ↔ name ∈ domain.names :=
  List.mem_map_of_injective fun _ _ same => String.singleton_inj.1 same

theorem nodup_texts (domain : Variables) : domain.texts.Nodup := by
  apply List.pairwise_map.2
  apply domain.distinct.imp
  intro first second different same
  exact different (String.singleton_inj.1 same)

theorem declare_next_eq_error_iff (domain : Variables) (name : String) (failure : Failure) :
    domain.declareNext name = .error failure ↔ Refuses domain.texts name failure := by
  constructor
  · intro refused
    unfold declareNext at refused
    rcases reserved_or_variable_or_other name with rfl | ⟨character, rfl, valid⟩ | other
    · rw [named_reserved] at refused
      cases refused
      exact .reserved
    · rw [(named_eq_ok_iff _ character).2 ⟨rfl, valid⟩] at refused
      obtain ⟨member, rfl⟩ := (append_eq_error_iff domain character failure).1 refused
      exact .repeated valid ((domain.mem_texts character).2 member)
    · rw [named_of_other other] at refused
      cases refused
      exact .invalid other
  · intro refuses
    unfold declareNext
    cases refuses with
    | reserved => rfl
    | invalid other => rw [named_of_other other]; rfl
    | @repeated character valid member =>
        rw [(named_eq_ok_iff _ character).2 ⟨rfl, valid⟩]
        exact (append_eq_error_iff domain character _).2 ⟨(domain.mem_texts character).1 member, rfl⟩

theorem declare_all_cons (domain : Variables) (name : String) (names : List String) :
    domain.declareAll (name :: names) =
      (domain.declareNext name).bind fun extended => extended.declareAll names := by
  have opened : domain.declareAll (name :: names) =
      (named name).bind fun added => (domain.append added).bind fun extended =>
        extended.declareAll names := rfl
  rw [opened, declareNext]
  cases named name <;> rfl

theorem declare_all_append (domain : Variables) (before after : List String) :
    domain.declareAll (before ++ after) =
      (domain.declareAll before).bind fun extended => extended.declareAll after := by
  induction before generalizing domain with
  | nil => rfl
  | cons name before induction =>
      rw [List.cons_append, declare_all_cons, declare_all_cons]
      cases domain.declareNext name with
      | error failure => rfl
      | ok extended => exact induction extended

theorem declare_all_eq_error_iff (domain : Variables) (names : List String) (failure : Failure) :
    domain.declareAll names = .error failure ↔
      ∃ before name after extended, names = before ++ name :: after ∧
        domain.declareAll before = .ok extended ∧ extended.declareNext name = .error failure := by
  constructor
  · intro refused
    induction names generalizing domain with
    | nil => cases refused
    | cons name names induction =>
        rw [declare_all_cons] at refused
        cases next : domain.declareNext name with
        | error fault =>
            rw [next] at refused
            cases refused
            exact ⟨[], name, names, domain, rfl, rfl, next⟩
        | ok added =>
            rw [next] at refused
            obtain ⟨before, other, after, extended, rfl, accepted, fault⟩ :=
              induction added refused
            refine ⟨name :: before, other, after, extended, rfl, ?_, fault⟩
            rw [declare_all_cons, next]
            exact accepted
  · rintro ⟨before, name, after, extended, rfl, accepted, fault⟩
    rw [declare_all_append, accepted]
    change extended.declareAll (name :: after) = _
    rw [declare_all_cons, fault]
    rfl

theorem exists_characters {names : List String} (valid : ∀ name ∈ names, IsVariableName name) :
    ∃ characters : List Variable, names = characters.map Char.toString ∧
      ∀ character ∈ characters, isVariable character = true := by
  induction names with
  | nil => exact ⟨[], rfl, by simp⟩
  | cons name names induction =>
      obtain ⟨characters, rfl, allValid⟩ :=
        induction fun other member => valid other (List.mem_cons_of_mem name member)
      obtain ⟨character, rfl, characterValid⟩ := valid name List.mem_cons_self
      exact ⟨character :: characters, rfl, by simpa using ⟨characterValid, allValid⟩⟩

theorem texts_of_declare_all {names : List String} {declared : Variables}
    (accepted : empty.declareAll names = .ok declared) : declared.texts = names := by
  obtain ⟨added, rfl, _, same⟩ := (declare_all_eq_ok_iff empty declared names).1 accepted
  rw [texts, same]
  rfl

theorem exists_declared_iff (names : List String) :
    (∃ declared, empty.declareAll names = .ok declared) ↔
      (∀ name ∈ names, IsVariableName name) ∧ names.Nodup := by
  constructor
  · rintro ⟨declared, accepted⟩
    obtain ⟨added, rfl, valid, same⟩ := (declare_all_eq_ok_iff empty declared names).1 accepted
    refine ⟨?_, texts_of_declare_all accepted ▸ declared.nodup_texts⟩
    intro name member
    obtain ⟨character, inside, rfl⟩ := List.mem_map.1 member
    exact ⟨character, rfl, valid character inside⟩
  · rintro ⟨valid, distinct⟩
    obtain ⟨characters, rfl, allValid⟩ := exists_characters valid
    have charactersDistinct : characters.Nodup := by
      apply (List.pairwise_map.1 distinct).imp
      intro first second different same
      exact different (by rw [same])
    refine ⟨⟨characters, charactersDistinct⟩, ?_⟩
    exact (declare_all_eq_ok_iff empty _ _).2 ⟨characters, rfl, allValid, rfl⟩

theorem not_offends_iff (names : List String) :
    (∀ index, ¬ Offends names index) ↔ (∀ name ∈ names, IsVariableName name) ∧ names.Nodup := by
  constructor
  · intro none
    constructor
    · intro name member
      obtain ⟨index, inside, rfl⟩ := List.getElem_of_mem member
      by_contra other
      exact none index ⟨names[index], List.getElem?_eq_getElem inside, .inl other⟩
    · apply List.pairwise_iff_getElem.2
      intro first second firstInside secondInside earlier same
      refine none second ⟨names[second], List.getElem?_eq_getElem secondInside, .inr ?_⟩
      rw [← same]
      exact List.mem_take_iff_getElem.2 ⟨first, by omega, rfl⟩
  · rintro ⟨valid, distinct⟩ index ⟨name, found, offence⟩
    obtain ⟨inside, rfl⟩ := List.getElem?_eq_some_iff.1 found
    rcases offence with other | member
    · exact other (valid _ (List.getElem_mem inside))
    · obtain ⟨first, firstInside, same⟩ := List.mem_take_iff_getElem.1 member
      exact List.pairwise_iff_getElem.1 distinct first index (by omega) inside (by omega) same

theorem offends_take_iff (names : List String) {count index : Nat} (inFront : index < count) :
    Offends (names.take count) index ↔ Offends names index := by
  unfold Offends
  rw [List.getElem?_take_of_lt inFront, List.take_take, Nat.min_eq_left (Nat.le_of_lt inFront)]

theorem exists_declared_in_front_iff (names : List String) (count : Nat) :
    (∃ declared, empty.declareAll (names.take count) = .ok declared) ↔
      ∀ index < count, ¬ Offends names index := by
  rw [exists_declared_iff, ← not_offends_iff]
  constructor
  · intro none index inFront offends
    exact none index ((offends_take_iff names inFront).2 offends)
  · intro none index offends
    by_cases inFront : index < count
    · exact none index inFront ((offends_take_iff names inFront).1 offends)
    · obtain ⟨name, found, _⟩ := offends
      rw [List.getElem?_take, if_neg inFront] at found
      cases found

theorem offends_of_refuses {names : List String} {index : Nat} {name : String} {failure : Failure}
    (found : names[index]? = some name) (refuses : Refuses (names.take index) name failure) :
    Offends names index := by
  refine ⟨name, found, ?_⟩
  cases refuses with
  | reserved =>
      left
      rintro ⟨character, spelled, valid⟩
      have same : 'v' = character := String.singleton_inj.1 spelled
      exact ((is_variable_iff character).1 valid).2.2 same.symm
  | invalid other =>
      left
      rintro ⟨character, spelled, valid⟩
      obtain ⟨least, greatest, _⟩ := (is_variable_iff character).1 valid
      exact other character least greatest spelled
  | repeated _ member => exact .inr member

theorem declare_all_refuses_iff (names : List String) (failure : Failure) :
    empty.declareAll names = .error failure ↔
      ∃ index name, names[index]? = some name ∧ Offends names index ∧
        (∀ earlier < index, ¬ Offends names earlier) ∧
        Refuses (names.take index) name failure := by
  rw [declare_all_eq_error_iff]
  constructor
  · rintro ⟨before, name, after, extended, rfl, accepted, refused⟩
    rw [declare_next_eq_error_iff, texts_of_declare_all accepted] at refused
    have front : (before ++ name :: after).take before.length = before := List.take_left
    have found : (before ++ name :: after)[before.length]? = some name := by simp
    rw [← front] at accepted refused
    exact ⟨before.length, name, found, offends_of_refuses found refused,
      (exists_declared_in_front_iff _ _).1 ⟨extended, accepted⟩, refused⟩
  · rintro ⟨index, name, found, _, first, refuses⟩
    obtain ⟨inside, rfl⟩ := List.getElem?_eq_some_iff.1 found
    obtain ⟨extended, accepted⟩ := (exists_declared_in_front_iff names index).2 first
    rw [← texts_of_declare_all accepted, ← declare_next_eq_error_iff] at refuses
    refine ⟨names.take index, names[index], names.drop (index + 1), extended, ?_, accepted, refuses⟩
    rw [← List.drop_eq_getElem_cons inside, List.take_append_drop]

theorem declare_of_exceeds {limit : Nat} {names : List String} (exceeds : limit < names.length) :
    declare limit names = .error (.tooMany names.length limit) := if_pos exceeds

theorem declare_of_within {limit : Nat} {names : List String} (within : names.length ≤ limit) :
    declare limit names = empty.declareAll names := if_neg (Nat.not_lt.2 within)

/-- Names are accepted when they are not more than the limit, each is that of a variable and no two
are the same. The variables are then those of the names, in their order, and never more than there
are letters for them. Otherwise the failure is that there are too many, whatever they are, or else the
one with which the first of those that offend is refused. -/
theorem declare_refuses_first_offender (limit : Nat) (names : List String) :
    ((∃ declared, declare limit names = .ok declared) ↔
      names.length ≤ limit ∧ (∀ name ∈ names, IsVariableName name) ∧ names.Nodup) ∧
    (∀ declared, declare limit names = .ok declared →
      declared.texts = names ∧ declared.size ≤ variableCount) ∧
    ∀ failure, declare limit names = .error failure ↔
      (limit < names.length ∧ failure = .tooMany names.length limit) ∨
        names.length ≤ limit ∧ ∃ index name, names[index]? = some name ∧ Offends names index ∧
          (∀ earlier < index, ¬ Offends names earlier) ∧
          Refuses (names.take index) name failure := by
  rcases Nat.lt_or_ge limit names.length with exceeds | within
  · have notWithin := Nat.not_le.2 exceeds
    rw [declare_of_exceeds exceeds]
    simp [exceeds, notWithin, eq_comm]
  · have notExceeds := Nat.not_lt.2 within
    rw [declare_of_within within, exists_declared_iff]
    refine ⟨by simp [within], ?_, ?_⟩
    · intro declared accepted
      rw [← declare_of_within within] at accepted
      have spelled := ((declare_eq_ok_iff limit names declared).1 accepted).1
      exact ⟨spelled.symm, (size_declare_le accepted).2⟩
    · intro failure
      rw [declare_all_refuses_iff]
      simp only [notExceeds, false_and, false_or, within, true_and]

/-- The reserved letter is found out although a later name is too long and another is repeated. -/
example : declare 4 ["p", "v", "pq", "p"] = .error .reservedName ∧
    declare 4 ["p", "p", "v", "pq"] = .error (.duplicateName 'p') ∧
    declare 3 ["p", "v", "pq", "p"] = .error (.tooMany 4 3) := by
  decide

end Variables

end Propositional
