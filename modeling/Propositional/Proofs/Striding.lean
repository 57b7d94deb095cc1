import Propositional.Proofs.WordEnumeration

/-!
Going through an enumeration in strides. A stride leaves out some assignments and hands out the one
behind them. In words of 64 bits there is no way to leave any out but to ask for each of them, and
the end is only recognised when the row is exactly the count of the rows. Still no row is passed
beyond the last, so that a stride too long for what is left ends the enumeration for good, and the
size that remains is never below zero.
-/

namespace Propositional

set_option autoImplicit false

/-- Hands out the next assignment, or the one behind as many others as a word says. -/
inductive Stride where
  | next
  | behind (others : Word)

def Stride.leftOut : Stride → Nat
  | .next => 0
  | .behind others => others.toNat

/-- What comes of a stride: an assignment, if there is one left for it, and how many are left after
it. -/
structure Found where
  assignment : Option Assignment
  remaining : Nat
  deriving DecidableEq

namespace Enumeration

def stride (enumeration : Enumeration) : List Stride → List Found
  | [] => []
  | stride :: strides =>
      let taken := enumeration.takeAfter stride.leftOut
      ⟨taken.1, taken.2.remaining⟩ :: taken.2.stride strides

def finished (domain : Variables) : Enumeration := ⟨domain, domain.rowCount, Nat.le_refl _⟩

theorem eq_of_row {first second : Enumeration} (sameDomain : first.domain = second.domain)
    (sameRow : first.row = second.row) : first = second := by
  cases first
  cases second
  cases sameDomain
  cases sameRow
  rfl

theorem eq_finished_of_next {enumeration : Enumeration} (done : enumeration.next? = none) :
    enumeration = finished enumeration.domain := by
  unfold next? at done
  split at done
  next => cases done
  next full => exact eq_of_row rfl (Nat.le_antisymm enumeration.inRange (Nat.not_lt.1 full))

theorem remaining_finished (domain : Variables) : (finished domain).remaining = 0 :=
  Nat.sub_self _

theorem next_finished (domain : Variables) : (finished domain).next? = none :=
  dif_neg (Nat.lt_irrefl _)

theorem take_after_zero {enumeration later : Enumeration} {assignment : Assignment}
    (found : enumeration.next? = some (assignment, later)) :
    enumeration.takeAfter 0 = (some assignment, later) := by
  have same : enumeration.skip 0 = enumeration :=
    eq_of_row rfl (Nat.min_eq_left enumeration.inRange)
  rw [takeAfter, same, found]

theorem take_after_inside {enumeration : Enumeration} {count : Nat}
    (inside : enumeration.row + count < enumeration.domain.rowCount) :
    enumeration.takeAfter count =
      (some (enumeration.domain.assignment (enumeration.row + count)),
        ⟨enumeration.domain, enumeration.row + count + 1, inside⟩) := by
  have row : (enumeration.skip count).row = enumeration.row + count :=
    Nat.min_eq_left (Nat.le_of_lt inside)
  have found : (enumeration.skip count).next? =
      some (enumeration.domain.assignment (enumeration.row + count),
        ⟨enumeration.domain, enumeration.row + count + 1, inside⟩) := by
    have more : (enumeration.skip count).row < (enumeration.skip count).domain.rowCount := by
      rw [row]
      exact inside
    unfold next?
    rw [dif_pos more]
    simp only [row]
    rfl
  rw [takeAfter, found]

theorem take_after_beyond {enumeration : Enumeration} {count : Nat}
    (beyond : enumeration.domain.rowCount ≤ enumeration.row + count) :
    enumeration.takeAfter count = (none, finished enumeration.domain) := by
  have skipped : enumeration.skip count = finished enumeration.domain :=
    eq_of_row rfl (Nat.min_eq_right beyond)
  rw [takeAfter, skipped, next_finished]

theorem take_after_finished (domain : Variables) (count : Nat) :
    (finished domain).takeAfter count = (none, finished domain) :=
  take_after_beyond (Nat.le_add_right _ _)

theorem take_after_of_next_none {enumeration : Enumeration} (done : enumeration.next? = none)
    (count : Nat) : enumeration.takeAfter count = (none, enumeration) := by
  rw [eq_finished_of_next done]
  exact take_after_finished enumeration.domain count

theorem domain_of_take_after (enumeration : Enumeration) (count : Nat) :
    (enumeration.takeAfter count).2.domain = enumeration.domain := by
  by_cases inside : enumeration.row + count < enumeration.domain.rowCount
  · rw [take_after_inside inside]
  · rw [take_after_beyond (Nat.not_lt.1 inside)]
    rfl

theorem take_after_succ {enumeration later : Enumeration} {assignment : Assignment}
    (found : enumeration.next? = some (assignment, later)) (count : Nat) :
    enumeration.takeAfter (count + 1) = later.takeAfter count := by
  unfold next? at found
  split at found
  next more =>
    cases found
    have same : enumeration.row + (count + 1) = enumeration.row + 1 + count := by omega
    by_cases inside : enumeration.row + 1 + count < enumeration.domain.rowCount
    · rw [take_after_inside (by rw [same]; exact inside), take_after_inside inside]
      simp only [same]
    · rw [take_after_beyond (by rw [same]; exact Nat.not_lt.1 inside),
        take_after_beyond (Nat.not_lt.1 inside)]
  next => cases found

end Enumeration

namespace WordEnumeration

/-- Asks for one assignment more than the count, and gives the last. When there are no more, it
stops asking. -/
def takeAfter? (words : WordEnumeration) : Nat → Option (Option Assignment × WordEnumeration)
  | 0 => do
      match ← words.next? with
      | none => return (none, words)
      | some (assignment, later) => return (some assignment, later)
  | count + 1 => do
      match ← words.next? with
      | none => return (none, words)
      | some (_, later) => later.takeAfter? count

def stride? (words : WordEnumeration) : List Stride → Option (List Found)
  | [] => return []
  | stride :: strides => do
      let (assignment, later) ← words.takeAfter? stride.leftOut
      let remaining ← later.remaining?
      let founds ← later.stride? strides
      return ⟨assignment, remaining.toNat⟩ :: founds

theorem take_after_of_finished {words : WordEnumeration} (done : words.next? = some none)
    (count : Nat) : words.takeAfter? count = some (none, words) := by
  cases count with
  | zero => rw [takeAfter?, done]; rfl
  | succ count => rw [takeAfter?, done]; rfl

/-- Asking again and again comes to the same as going to the row at once. -/
theorem take_after_carries {words : WordEnumeration} {enumeration : Enumeration}
    (few : enumeration.domain.size < 64) (carries : words.Carries enumeration) (count : Nat) :
    ∃ later, words.takeAfter? count = some ((enumeration.takeAfter count).1, later) ∧
      later.Carries (enumeration.takeAfter count).2 := by
  induction count generalizing words enumeration with
  | zero =>
      cases found : enumeration.next? with
      | none =>
          rw [take_after_of_finished (next_of_finished carries found),
            Enumeration.take_after_of_next_none found]
          exact ⟨words, rfl, carries⟩
      | some pair =>
          obtain ⟨later, taken, laterCarries⟩ := next_carries few carries found
          rw [takeAfter?, taken, Enumeration.take_after_zero found]
          exact ⟨later, rfl, laterCarries⟩
  | succ count induction =>
      cases found : enumeration.next? with
      | none =>
          rw [take_after_of_finished (next_of_finished carries found),
            Enumeration.take_after_of_next_none found]
          exact ⟨words, rfl, carries⟩
      | some pair =>
          obtain ⟨later, taken, laterCarries⟩ := next_carries few carries found
          rw [takeAfter?, taken, Enumeration.take_after_succ found]
          refine induction ?_ laterCarries
          rw [Enumeration.domain_of_next found]
          exact few

theorem stride_carries {words : WordEnumeration} {enumeration : Enumeration}
    (few : enumeration.domain.size < 64) (carries : words.Carries enumeration)
    (strides : List Stride) : words.stride? strides = some (enumeration.stride strides) := by
  induction strides generalizing words enumeration with
  | nil => rfl
  | cons stride strides induction =>
      obtain ⟨later, taken, laterCarries⟩ := take_after_carries few carries stride.leftOut
      obtain ⟨rest, remaining, restEq⟩ := remaining_carries laterCarries
      have laterFew : (enumeration.takeAfter stride.leftOut).2.domain.size < 64 := by
        rw [Enumeration.domain_of_take_after]
        exact few
      rw [stride?, taken]
      change (later.remaining?.bind fun remaining => (later.stride? strides).bind fun founds =>
        some (⟨(enumeration.takeAfter stride.leftOut).1, remaining.toNat⟩ :: founds)) = _
      rw [remaining, induction laterFew laterCarries, Option.bind_some, Option.bind_some, restEq]
      rfl

end WordEnumeration

namespace Variables

/-- What is to come of some strides when a number of assignments have been passed before: the
assignment behind those which a stride leaves out, and then the count of those behind it. If there is
no such assignment, nothing is left, neither for this stride nor for any later one. -/
def foundBy (domain : Variables) (passed : Nat) : List Stride → List Found
  | [] => []
  | stride :: strides =>
      if inside : passed + stride.leftOut < 2 ^ domain.size then
        ⟨some (domain.assignments.get ⟨passed + stride.leftOut, by
            rw [length_assignments]
            exact inside⟩),
          2 ^ domain.size - (passed + stride.leftOut + 1)⟩ ::
          domain.foundBy (passed + stride.leftOut + 1) strides
      else
        (stride :: strides).map fun _ => ⟨none, 0⟩

end Variables

namespace Enumeration

theorem stride_finished (domain : Variables) (strides : List Stride) :
    (finished domain).stride strides = strides.map fun _ => ⟨none, 0⟩ := by
  induction strides with
  | nil => rfl
  | cons stride strides induction =>
      rw [Enumeration.stride, take_after_finished, remaining_finished, induction]
      rfl

theorem stride_eq_found_by (enumeration : Enumeration) (strides : List Stride) :
    enumeration.stride strides = enumeration.domain.foundBy enumeration.row strides := by
  induction strides generalizing enumeration with
  | nil => rfl
  | cons stride strides induction =>
      rw [Enumeration.stride, Variables.foundBy]
      by_cases inside : enumeration.row + stride.leftOut < 2 ^ enumeration.domain.size
      · have more := inside
        rw [← Variables.row_count_eq] at more
        rw [dif_pos inside, take_after_inside more]
        simp only [induction, remaining, Variables.row_count_eq]
        simp [Variables.assignments]
      · have beyond := Nat.not_lt.1 inside
        rw [← Variables.row_count_eq] at beyond
        rw [dif_neg inside, take_after_beyond beyond, remaining_finished, stride_finished]
        rfl

end Enumeration

/-- Whatever the strides, each hands out the assignment at the place it goes to, if there is one,
and otherwise it and all the strides after it find nothing. The size that remains is always the count
of all assignments less those handed out or left out. In words, with as many variables as there
are letters or fewer, no arithmetic on the way leaves their range, and the same is found. -/
theorem Variables.strides_find_in_order (domain : Variables)
    (few : domain.size ≤ variableCount) (strides : List Stride) :
    (∃ words, WordEnumeration.start? domain = some words ∧
      words.stride? strides = some (domain.foundBy 0 strides)) ∧
    (Enumeration.start domain).stride strides = domain.foundBy 0 strides := by
  have small : domain.size < 64 := Nat.lt_of_le_of_lt few (by decide)
  have found : (Enumeration.start domain).stride strides = domain.foundBy 0 strides :=
    (Enumeration.start domain).stride_eq_found_by strides
  obtain ⟨words, started, carries⟩ := WordEnumeration.carries_start small
  refine ⟨⟨words, started, ?_⟩, found⟩
  rw [WordEnumeration.stride_carries small carries, found]

theorem Variables.strides_find_in_order_beyond_end :
    (∃ words, WordEnumeration.start? ⟨['p', 'q'], by decide⟩ = some words ∧
      words.stride? [.behind 1, .next, .behind 18446744073709551615, .next] =
        some [⟨some ⟨[('p', true), ('q', false)]⟩, 2⟩, ⟨some ⟨[('p', false), ('q', true)]⟩, 1⟩,
          ⟨none, 0⟩, ⟨none, 0⟩]) ∧
    (Enumeration.start ⟨['p', 'q'], by decide⟩).stride
        [.behind 1, .next, .behind 18446744073709551615, .next] =
      [⟨some ⟨[('p', true), ('q', false)]⟩, 2⟩, ⟨some ⟨[('p', false), ('q', true)]⟩, 1⟩,
        ⟨none, 0⟩, ⟨none, 0⟩] := by
  have inOrder := Variables.strides_find_in_order ⟨['p', 'q'], by decide⟩ (by decide)
    [.behind 1, .next, .behind 18446744073709551615, .next]
  exact inOrder

end Propositional
