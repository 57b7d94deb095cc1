import Mathlib.Algebra.Group.Nat.Defs
import Mathlib.Data.List.Nodup
import Propositional.Enumeration

/-!
The assignments in the order of the rows, as a recursion on the variables: first those on which the
first variable is true, then those on which it is false, each time followed by the assignments to
the others. From this it follows that every assignment to the variables is listed exactly once.
-/

namespace Propositional

set_option autoImplicit false

def rowPairs (names : List Variable) (row : Nat) : List (Variable × Bool) :=
  names.mapIdx fun index name => (name, !row.testBit (names.length - 1 - index))

def allPairs (names : List Variable) : List (List (Variable × Bool)) :=
  (List.range (2 ^ names.length)).map (rowPairs names)

theorem row_pairs_cons (name : Variable) (names : List Variable) (row : Nat) :
    rowPairs (name :: names) row = (name, !row.testBit names.length) :: rowPairs names row := by
  unfold rowPairs
  rw [List.mapIdx_cons]
  congr 1
  apply List.mapIdx_eq_mapIdx_iff.2
  intro index bound
  have same : (name :: names).length - 1 - (index + 1) = names.length - 1 - index := by
    simp only [List.length_cons]
    omega
  rw [same]

/-- The digit in front of the ones that belong to the names has no effect on them. -/
theorem row_pairs_add (names : List Variable) (row count : Nat) (bound : names.length ≤ count) :
    rowPairs names (2 ^ count + row) = rowPairs names row := by
  unfold rowPairs
  apply List.mapIdx_eq_mapIdx_iff.2
  intro index inside
  have lower : names.length - 1 - index < count := by omega
  rw [Nat.testBit_two_pow_add_gt lower]

theorem all_pairs_cons (name : Variable) (names : List Variable) :
    allPairs (name :: names) =
      (allPairs names).map ((name, true) :: ·) ++ (allPairs names).map ((name, false) :: ·) := by
  have doubled : 2 ^ (name :: names).length = 2 ^ names.length + 2 ^ names.length := by
    rw [List.length_cons, Nat.pow_succ, Nat.mul_two]
  -- the rows of the first half have the digit 0 in front, those of the second half the digit 1
  unfold allPairs
  rw [doubled, List.range_add, List.map_append, List.map_map, List.map_map, List.map_map]
  congr 1
  · apply List.map_congr_left
    intro row member
    have bound := List.mem_range.1 member
    rw [Function.comp_apply, row_pairs_cons, Nat.testBit_lt_two_pow bound]
    rfl
  · apply List.map_congr_left
    intro row member
    have bound := List.mem_range.1 member
    rw [Function.comp_apply, Function.comp_apply, row_pairs_cons, Nat.testBit_two_pow_add_eq,
      Nat.testBit_lt_two_pow bound, row_pairs_add names row _ (Nat.le_refl _)]
    rfl

theorem mem_all_pairs (names : List Variable) (pairs : List (Variable × Bool)) :
    pairs ∈ allPairs names ↔ pairs.map Prod.fst = names := by
  induction names generalizing pairs with
  | nil => simp [allPairs, rowPairs]
  | cons name names induction =>
      rw [all_pairs_cons, List.mem_append, List.mem_map, List.mem_map]
      constructor
      · rintro (⟨rest, member, rfl⟩ | ⟨rest, member, rfl⟩)
        · rw [List.map_cons, (induction rest).1 member]
        · rw [List.map_cons, (induction rest).1 member]
      · intro same
        match pairs with
        | [] => cases same
        | (first, value) :: rest =>
            obtain ⟨firstSame, restSame⟩ := List.cons.inj same
            cases firstSame
            have member := (induction rest).2 restSame
            cases value with
            | true => exact .inl ⟨rest, member, rfl⟩
            | false => exact .inr ⟨rest, member, rfl⟩

theorem nodup_all_pairs (names : List Variable) : (allPairs names).Nodup := by
  induction names with
  | nil => simp [allPairs]
  | cons name names induction =>
      have distinct (value : Bool) : ((allPairs names).map ((name, value) :: ·)).Nodup := by
        apply List.Nodup.map _ induction
        intro first second same
        exact (List.cons.inj same).2
      rw [all_pairs_cons, List.nodup_append]
      refine ⟨distinct true, distinct false, ?_⟩
      intro first firstMember second secondMember same
      obtain ⟨firstRest, _, rfl⟩ := List.mem_map.1 firstMember
      obtain ⟨secondRest, _, rfl⟩ := List.mem_map.1 secondMember
      cases (List.cons.inj same).1

namespace Assignment

/-- The variables are assigned values in their order, and no others are. -/
def IsOver (assignment : Assignment) (domain : Variables) : Prop :=
  assignment.pairs.map Prod.fst = domain.names

def Agrees (assignment : Assignment) (world : Variable → Bool) : Prop :=
  ∀ pair ∈ assignment.pairs, world pair.1 = pair.2

def restrict (world : Variable → Bool) (domain : Variables) : Assignment :=
  ⟨domain.names.map fun name => (name, world name)⟩

theorem restrict_is_over (world : Variable → Bool) (domain : Variables) :
    (restrict world domain).IsOver domain := by
  unfold IsOver restrict
  rw [List.map_map]
  exact List.map_id _

theorem restrict_agrees (world : Variable → Bool) (domain : Variables) :
    (restrict world domain).Agrees world := by
  intro pair member
  obtain ⟨name, _, rfl⟩ := List.mem_map.1 member
  rfl

theorem valuation_of_agrees {assignment : Assignment} {domain : Variables}
    {world : Variable → Bool} {name : Variable} (fits : assignment.IsOver domain)
    (agrees : assignment.Agrees world) (member : name ∈ domain.names) :
    assignment.valuation name = some (world name) := by
  unfold IsOver at fits
  unfold Agrees at agrees
  unfold valuation
  rw [← fits] at member
  generalize assignment.pairs = pairs at agrees member
  induction pairs with
  | nil => cases member
  | cons pair pairs induction =>
      -- where a name is listed twice, both pairs have the value of the world
      obtain ⟨first, value⟩ := pair
      rw [List.lookup_cons]
      by_cases same : name = first
      · subst same
        have here := agrees (name, value) (by simp)
        simp only [beq_self_eq_true]
        rw [here]
      · have later : name ∈ pairs.map Prod.fst := by
          rcases List.mem_cons.1 member with here | later
          · exact absurd here same
          · exact later
        have different : (name == first) = false := by simpa using same
        rw [different]
        exact induction (by intro pair inside; exact agrees pair (by simp [inside])) later

/-- As the variables are distinct, some valuation of all variables gives the same values. -/
theorem exists_agrees {assignment : Assignment} {domain : Variables}
    (fits : assignment.IsOver domain) : ∃ world, assignment.Agrees world := by
  have distinct := domain.distinct
  unfold IsOver at fits
  rw [← fits] at distinct
  refine ⟨fun name => (assignment.valuation name).getD false, ?_⟩
  unfold Agrees valuation
  generalize assignment.pairs = pairs at distinct
  induction pairs with
  | nil =>
      intro pair member
      cases member
  | cons first pairs induction =>
      obtain ⟨fresh, restDistinct⟩ := List.nodup_cons.1 distinct
      obtain ⟨name, value⟩ := first
      intro pair member
      simp only [List.lookup_cons]
      rcases List.mem_cons.1 member with rfl | member
      · simp
      · have different : (pair.1 == name) = false := by
          have inside : pair.1 ∈ pairs.map Prod.fst := List.mem_map_of_mem member
          rw [beq_eq_false_iff_ne]
          intro same
          rw [same] at inside
          exact fresh inside
        rw [different]
        exact induction restDistinct pair member

theorem valuation_is_none_iff {assignment : Assignment} {domain : Variables}
    (fits : assignment.IsOver domain) (name : Variable) :
    (assignment.valuation name).isNone ↔ name ∉ domain.names := by
  unfold IsOver at fits
  rw [Option.isNone_iff_eq_none, valuation, List.lookup_eq_none_iff, ← fits, List.mem_map]
  constructor
  · rintro absent ⟨pair, member, rfl⟩
    simpa using absent pair member
  · intro absent pair member
    rw [bne_iff_ne]
    rintro rfl
    exact absent ⟨pair, member, rfl⟩

end Assignment

namespace Variables

theorem row_count_eq (domain : Variables) : domain.rowCount = 2 ^ domain.size := by
  rw [rowCount, Nat.shiftLeft_eq, Nat.one_mul]

theorem assignments_eq (domain : Variables) :
    domain.assignments = (allPairs domain.names).map Assignment.mk := by
  unfold assignments allPairs
  rw [row_count_eq, List.map_map]
  rfl

theorem length_assignments (domain : Variables) :
    domain.assignments.length = 2 ^ domain.size := by
  rw [assignments, List.length_map, List.length_range, row_count_eq]

theorem nodup_assignments (domain : Variables) : domain.assignments.Nodup := by
  rw [assignments_eq]
  apply List.Nodup.map _ (nodup_all_pairs domain.names)
  intro first second same
  exact congrArg Assignment.pairs same

theorem mem_assignments (domain : Variables) (assignment : Assignment) :
    assignment ∈ domain.assignments ↔ assignment.IsOver domain := by
  rw [assignments_eq, List.mem_map, Assignment.IsOver, ← mem_all_pairs]
  constructor
  · rintro ⟨pairs, member, rfl⟩
    exact member
  · intro member
    exact ⟨assignment.pairs, member, rfl⟩

theorem assignment_mem_assignments (domain : Variables) {row : Nat}
    (inside : row < 2 ^ domain.size) : domain.assignment row ∈ domain.assignments := by
  apply List.mem_map_of_mem
  rw [List.mem_range, row_count_eq]
  exact inside

theorem assignments_eq_cons (domain : Variables) :
    ∃ rest, domain.assignments = domain.assignment 0 :: rest := by
  have positive : 0 < domain.rowCount := by
    rw [row_count_eq]
    exact Nat.two_pow_pos domain.size
  obtain ⟨count, same⟩ := Nat.exists_eq_add_of_lt positive
  rw [Nat.zero_add] at same
  unfold assignments
  rw [same, List.range_succ_eq_map, List.map_cons]
  exact ⟨_, rfl⟩

end Variables

end Propositional
