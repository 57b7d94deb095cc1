import Mathlib.Data.List.Perm.Subperm
import Propositional.Variables

/-!
Which names can be declared. A declaration succeeds exactly when its names are those of different
variables and no more than the limit allows, and then it lists these variables in their order.
-/

namespace Propositional

set_option autoImplicit false

namespace Variables

theorem eq_of_names {first second : Variables} (same : first.names = second.names) :
    first = second := by
  cases first
  cases second
  cases same
  rfl

theorem named_eq_ok_iff (name : String) (character : Variable) :
    named name = .ok character ↔ name = character.toString ∧ isVariable character = true := by
  constructor
  · intro accepted
    unfold named at accepted
    split at accepted
    next _ other single =>
      split at accepted
      next => cases accepted
      next =>
        split at accepted
        next valid =>
          cases accepted
          refine ⟨?_, valid⟩
          apply String.toList_injective
          rw [single]
          exact (String.toList_singleton character).symm
        next => cases accepted
    next => cases accepted
  · rintro ⟨rfl, valid⟩
    have single : character.toString.toList = [character] := String.toList_singleton character
    have notReserved : character ≠ reservedLetter := ((is_variable_iff character).1 valid).2.2
    unfold named
    rw [single]
    simp only [if_neg notReserved, if_pos valid]

theorem append_eq_ok_iff (domain extended : Variables) (name : Variable) :
    domain.append name = .ok extended ↔ extended.names = domain.names ++ [name] := by
  constructor
  · intro appended
    unfold append at appended
    split at appended
    next => cases appended
    next =>
      cases appended
      rfl
  · intro same
    have distinct := extended.distinct
    rw [same, List.nodup_append] at distinct
    have fresh : name ∉ domain.names := by
      intro member
      exact distinct.2.2 name member name (by simp) rfl
    unfold append
    rw [dif_neg fresh, Except.ok.injEq]
    exact eq_of_names same.symm

theorem declare_all_cons_eq_ok_iff (domain declared : Variables) (name : String)
    (names : List String) :
    domain.declareAll (name :: names) = .ok declared ↔
      ∃ added extended, named name = .ok added ∧ domain.append added = .ok extended ∧
        extended.declareAll names = .ok declared := by
  have opened : domain.declareAll (name :: names) =
      (named name).bind fun added => (domain.append added).bind fun extended =>
        extended.declareAll names := rfl
  rw [opened]
  cases named name with
  | error failure => simp [Except.bind]
  | ok added =>
      simp only [Except.bind, Except.ok.injEq, exists_and_left, exists_eq_left']
      cases domain.append added <;> simp

theorem declare_all_eq_ok_iff (domain declared : Variables) (names : List String) :
    domain.declareAll names = .ok declared ↔
      ∃ added : List Variable, names = added.map Char.toString ∧
        (∀ name ∈ added, isVariable name = true) ∧ declared.names = domain.names ++ added := by
  induction names generalizing domain with
  | nil =>
      have opened : domain.declareAll [] = .ok domain := rfl
      rw [opened, Except.ok.injEq]
      constructor
      · rintro rfl
        exact ⟨[], rfl, by simp, by simp⟩
      · rintro ⟨added, none, _, same⟩
        rw [List.map_eq_nil_iff.1 none.symm, List.append_nil] at same
        exact (eq_of_names same).symm
  | cons name names induction =>
      rw [declare_all_cons_eq_ok_iff]
      constructor
      · rintro ⟨added, extended, accepted, appended, rest⟩
        obtain ⟨rfl, valid⟩ := (named_eq_ok_iff name added).1 accepted
        obtain ⟨later, rfl, laterValid, same⟩ := (induction extended).1 rest
        rw [(append_eq_ok_iff domain extended added).1 appended] at same
        exact ⟨added :: later, rfl, by simpa using ⟨valid, laterValid⟩, by simpa using same⟩
      · rintro ⟨added, spelled, valid, same⟩
        match added with
        | [] => cases spelled
        | first :: later =>
            obtain ⟨rfl, rfl⟩ := List.cons.inj spelled
            have distinct := declared.distinct
            rw [same, ← List.singleton_append, ← List.append_assoc] at distinct
            have firstDistinct := (List.nodup_append.1 distinct).1
            refine ⟨first, ⟨domain.names ++ [first], firstDistinct⟩, ?_, ?_, ?_⟩
            · exact (named_eq_ok_iff _ first).2 ⟨rfl, valid first (by simp)⟩
            · exact (append_eq_ok_iff domain _ first).2 rfl
            · rw [induction]
              refine ⟨later, rfl, by intro name member; exact valid name (by simp [member]), ?_⟩
              rw [same, List.append_assoc, List.singleton_append]

theorem declare_eq_ok_iff (limit : Nat) (names : List String) (declared : Variables) :
    declare limit names = .ok declared ↔
      names = declared.names.map Char.toString ∧
        (∀ name ∈ declared.names, isVariable name = true) ∧ declared.size ≤ limit := by
  unfold declare
  by_cases exceeds : limit < names.length
  · rw [if_pos exceeds]
    constructor
    · intro refused
      cases refused
    · rintro ⟨rfl, _, within⟩
      rw [List.length_map] at exceeds
      exact absurd exceeds (Nat.not_lt.2 within)
  · rw [if_neg exceeds, declare_all_eq_ok_iff]
    constructor
    · rintro ⟨added, rfl, valid, same⟩
      rw [empty, List.nil_append] at same
      rw [size, same]
      rw [List.length_map] at exceeds
      exact ⟨rfl, valid, Nat.not_lt.1 exceeds⟩
    · rintro ⟨spelled, valid, _⟩
      exact ⟨declared.names, spelled, valid, rfl⟩

theorem size_of_declare {limit : Nat} {names : List String} {declared : Variables}
    (accepted : declare limit names = .ok declared) : declared.size = names.length := by
  rw [((declare_eq_ok_iff limit names declared).1 accepted).1, List.length_map, size]

theorem size_le_variable_count {domain : Variables}
    (valid : ∀ name ∈ domain.names, isVariable name = true) : domain.size ≤ variableCount := by
  have inside : domain.names ⊆ ((List.range 128).map Char.ofNat).filter isVariable := by
    intro name member
    obtain ⟨least, greatest, _⟩ := (is_variable_iff name).1 (valid name member)
    have small : name.toNat < 128 := Nat.lt_of_le_of_lt greatest (by decide)
    rw [List.mem_filter, List.mem_map]
    exact ⟨⟨name.toNat, List.mem_range.2 small, Char.ofNat_toNat name⟩, valid name member⟩
  rw [← variable_count_eq]
  exact (List.subperm_of_subset domain.distinct inside).length_le

theorem size_declare_le {limit : Nat} {names : List String} {declared : Variables}
    (accepted : declare limit names = .ok declared) :
    declared.size ≤ limit ∧ declared.size ≤ variableCount := by
  obtain ⟨_, valid, within⟩ := (declare_eq_ok_iff limit names declared).1 accepted
  exact ⟨within, size_le_variable_count valid⟩

end Variables

end Propositional
