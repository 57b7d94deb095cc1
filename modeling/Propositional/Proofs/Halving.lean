import Propositional.Proofs.Tabulation
import Propositional.Proofs.WordEnumeration

/-!
The order of an enumeration. Each assignment is computed by itself, from the binary digits of its
row, but together they come in the order of a recursion on the variables: the assignments to all
variables but the first are listed twice, behind the first variable being true and then behind its
being false. Handing them out one at a time, in words of 64 bits, arrives at the same list.
-/

namespace Propositional

set_option autoImplicit false

def Assignment.cons (name : Variable) (value : Bool) (assignment : Assignment) : Assignment :=
  ⟨(name, value) :: assignment.pairs⟩

def Enumeration.collect (enumeration : Enumeration) : List Assignment :=
  match _ : enumeration.next? with
  | none => []
  | some (assignment, later) => assignment :: later.collect
termination_by enumeration.remaining
decreasing_by exact remaining_next ‹_›

theorem Enumeration.collect_eq_upcoming (enumeration : Enumeration) :
    enumeration.collect = enumeration.upcoming := by
  fun_induction collect enumeration with
  | case1 enumeration done => exact (upcoming_of_next_none done).symm
  | case2 enumeration assignment later found induction =>
      rw [upcoming_of_next found, induction]

namespace WordEnumeration

/-- An enumeration in words hands out just these assignments, and all its arithmetic has results. -/
inductive HandsOut : WordEnumeration → List Assignment → Prop where
  | done {words : WordEnumeration} (finished : words.next? = some none) : HandsOut words []
  | next {words later : WordEnumeration} {assignment : Assignment} {assignments : List Assignment}
      (taken : words.next? = some (some (assignment, later)))
      (rest : HandsOut later assignments) : HandsOut words (assignment :: assignments)

theorem HandsOut.unique {words : WordEnumeration} {assignments others : List Assignment}
    (first : words.HandsOut assignments) (second : words.HandsOut others) :
    assignments = others := by
  induction first generalizing others with
  | done finished =>
      cases second with
      | done _ => rfl
      | next taken _ =>
          rw [finished] at taken
          cases taken
  | next taken rest induction =>
      cases second with
      | done finished =>
          rw [taken] at finished
          cases finished
      | next otherTaken otherRest =>
          rw [taken] at otherTaken
          cases otherTaken
          rw [induction otherRest]

theorem hands_out_collect {words : WordEnumeration} {enumeration : Enumeration}
    (few : enumeration.domain.size < 64) (carries : words.Carries enumeration) :
    words.HandsOut enumeration.collect := by
  fun_induction Enumeration.collect enumeration generalizing words with
  | case1 enumeration done => exact .done (next_of_finished carries done)
  | case2 enumeration assignment later found induction =>
      obtain ⟨laterWords, taken, laterCarries⟩ := next_carries few carries found
      have laterFew : later.domain.size < 64 := by
        rw [Enumeration.domain_of_next found]
        exact few
      exact .next taken (induction laterFew laterCarries)

end WordEnumeration

namespace Variables

theorem hands_out_assignments {domain : Variables} (few : domain.size < 64) :
    ∃ words, WordEnumeration.start? domain = some words ∧ words.HandsOut domain.assignments := by
  obtain ⟨words, started, carries⟩ := WordEnumeration.carries_start few
  have handed := WordEnumeration.hands_out_collect few carries
  rw [Enumeration.collect_eq_upcoming, Enumeration.upcoming_start] at handed
  exact ⟨words, started, handed⟩

theorem assignments_of_no_names {domain : Variables} (none : domain.names = []) :
    domain.assignments = [⟨[]⟩] := by
  rw [assignments_eq, none]
  rfl

theorem assignments_of_cons {domain others : Variables} {name : Variable}
    (split : domain.names = name :: others.names) :
    domain.assignments = others.assignments.map (.cons name true) ++
      others.assignments.map (.cons name false) := by
  rw [assignments_eq, assignments_eq, split, all_pairs_cons, List.map_append, List.map_map,
    List.map_map, List.map_map, List.map_map]
  rfl

theorem count_restrict (domain : Variables) (world : Variable → Bool) :
    domain.assignments.count (.restrict world domain) = 1 := by
  apply List.count_eq_one_of_mem domain.nodup_assignments
  rw [mem_assignments]
  exact Assignment.restrict_is_over world domain

end Variables

/-- The assignments are as many as two to the power of the count of the variables, and all of them
are different. Each gives values to the variables in their order, and the values that any function
has on the variables are given by just one of them. -/
structure Variables.IsEnumeratedBy (domain : Variables) (assignments : List Assignment) : Prop where
  count : assignments.length = 2 ^ domain.size
  distinct : assignments.Nodup
  ordered : ∀ assignment ∈ assignments, assignment.IsOver domain
  once : ∀ world, assignments.count (.restrict world domain) = 1

/-- An enumeration hands out every assignment to the variables once and nothing else. No arithmetic
leaves the range of words as long as there are not more variables than letters to name them. The
first variable halves the list: each half is the enumeration of the other variables, behind the
first being true and then behind its being false. -/
theorem Variables.enumeration_is_complete_and_halved (domain : Variables) :
    (Enumeration.start domain).collect = domain.assignments ∧
    (domain.size ≤ variableCount → ∃ words, WordEnumeration.start? domain = some words ∧
      ∀ assignments, words.HandsOut assignments ↔ assignments = domain.assignments) ∧
    domain.IsEnumeratedBy domain.assignments ∧
    (domain.names = [] → domain.assignments = [⟨[]⟩]) ∧
    ∀ (name : Variable) (others : Variables), domain.names = name :: others.names →
      domain.assignments = others.assignments.map (.cons name true) ++
        others.assignments.map (.cons name false) := by
  refine ⟨?collected, ?inWords, ?complete, assignments_of_no_names, ?halved⟩
  case collected => rw [Enumeration.collect_eq_upcoming, Enumeration.upcoming_start]
  case inWords =>
    intro few
    obtain ⟨words, started, handed⟩ :=
      hands_out_assignments (Nat.lt_of_le_of_lt few (by decide))
    refine ⟨words, started, ?_⟩
    intro assignments
    constructor
    · intro other
      exact other.unique handed
    · intro same
      rw [same]
      exact handed
  case complete =>
    refine ⟨domain.length_assignments, domain.nodup_assignments, ?_, domain.count_restrict⟩
    intro assignment member
    exact (domain.mem_assignments assignment).1 member
  case halved =>
    intro name others split
    exact assignments_of_cons split

end Propositional
