import Propositional.Proofs.Assignments

/-!
The enumeration in words of 64 bits, as it runs on a machine. Arithmetic on words has no result
where it would leave their range, and nothing guards against this but the count of the variables:
with fewer than 64 of them the words carry an enumeration from its start to its end.
-/

namespace Propositional

set_option autoImplicit false

abbrev Word := UInt64

namespace Word

def shiftLeft? (word amount : Word) : Option Word :=
  if amount < 64 then some (word <<< amount) else none

def shiftRight? (word amount : Word) : Option Word :=
  if amount < 64 then some (word >>> amount) else none

def subtract? (word other : Word) : Option Word :=
  if other ≤ word then some (word - other) else none

def successor? (word : Word) : Option Word :=
  if word + 1 = 0 then none else some (word + 1)

theorem shift_left_one (amount : Word) (small : amount.toNat < 64) :
    ∃ result, shiftLeft? 1 amount = some result ∧ result.toNat = 2 ^ amount.toNat := by
  have inside : amount < 64 := UInt64.lt_iff_toNat_lt.2 small
  have power : 2 ^ amount.toNat < 2 ^ 64 := Nat.pow_lt_pow_right (by decide) small
  refine ⟨1 <<< amount, by rw [shiftLeft?, if_pos inside], ?_⟩
  rw [UInt64.toNat_shiftLeft, Nat.mod_eq_of_lt small, Nat.shiftLeft_eq, UInt64.toNat_one,
    Nat.one_mul, Nat.mod_eq_of_lt power]

theorem shift_right (word : Word) {amount : Word} (small : amount.toNat < 64) :
    ∃ result, word.shiftRight? amount = some result ∧
      result.toNat = word.toNat >>> amount.toNat := by
  have inside : amount < 64 := UInt64.lt_iff_toNat_lt.2 small
  refine ⟨word >>> amount, by rw [shiftRight?, if_pos inside], ?_⟩
  rw [UInt64.toNat_shiftRight, Nat.mod_eq_of_lt small]

theorem subtract (word other : Word) (within : other.toNat ≤ word.toNat) :
    ∃ result, word.subtract? other = some result ∧
      result.toNat = word.toNat - other.toNat := by
  have ordered : other ≤ word := UInt64.le_iff_toNat_le.2 within
  refine ⟨word - other, by rw [subtract?, if_pos ordered], ?_⟩
  exact UInt64.toNat_sub_of_le _ _ ordered

theorem successor {word bound : Word} (below : word.toNat < bound.toNat) :
    ∃ result, word.successor? = some result ∧ result.toNat = word.toNat + 1 := by
  have range := bound.toNat_lt
  have next : (word + 1).toNat = word.toNat + 1 := by
    rw [UInt64.toNat_add, UInt64.toNat_one, Nat.mod_eq_of_lt (by omega)]
  have nonzero : word + 1 ≠ 0 := by
    intro zero
    rw [zero, UInt64.toNat_zero] at next
    omega
  exact ⟨word + 1, by rw [successor?, if_neg nonzero], next⟩

end Word

/-- An enumeration in words. It is at its end when the row is the count of the rows. -/
structure WordEnumeration where
  domain : Variables
  row : Word
  count : Word

theorem Enumeration.domain_of_next {enumeration later : Enumeration} {assignment : Assignment}
    (found : enumeration.next? = some (assignment, later)) : later.domain = enumeration.domain := by
  unfold next? at found
  split at found
  next =>
    cases found
    rfl
  next => cases found

namespace WordEnumeration

def start? (domain : Variables) : Option WordEnumeration := do
  let count ← Word.shiftLeft? 1 (.ofNat domain.size)
  return ⟨domain, 0, count⟩

/-- How far the row is shifted to find the digit of a variable. -/
def shift? (words : WordEnumeration) (index : Nat) : Option Word := do
  let last ← Word.subtract? (.ofNat words.domain.size) 1
  last.subtract? (.ofNat index)

def value? (words : WordEnumeration) (index : Nat) : Option Bool := do
  let amount ← words.shift? index
  let digits ← words.row.shiftRight? amount
  return digits &&& 1 == 0

def assignment? (words : WordEnumeration) : Option Assignment := do
  let pairs ← words.domain.names.zipIdx.mapM fun entry => do
    let value ← words.value? entry.2
    return (entry.1, value)
  return ⟨pairs⟩

def next? (words : WordEnumeration) : Option (Option (Assignment × WordEnumeration)) :=
  if words.row = words.count then
    return none
  else do
    let assignment ← words.assignment?
    let row ← words.row.successor?
    return some (assignment, { words with row := row })

def remaining? (words : WordEnumeration) : Option Word := words.count.subtract? words.row

/-- The words have the values of an enumeration without a bound on numbers. -/
structure Carries (words : WordEnumeration) (enumeration : Enumeration) : Prop where
  domain : words.domain = enumeration.domain
  row : words.row.toNat = enumeration.row
  count : words.count.toNat = enumeration.domain.rowCount

theorem to_nat_of_small {number : Nat} (small : number < 64) :
    (UInt64.ofNat number).toNat = number := by
  rw [UInt64.toNat_ofNat', Nat.mod_eq_of_lt (Nat.lt_trans small (by decide))]

theorem carries_start {domain : Variables} (few : domain.size < 64) :
    ∃ words, start? domain = some words ∧ words.Carries (.start domain) := by
  have size := to_nat_of_small few
  obtain ⟨count, shifted, power⟩ := Word.shift_left_one (.ofNat domain.size) (by omega)
  refine ⟨⟨domain, 0, count⟩, by rw [start?, shifted]; rfl, rfl, rfl, ?_⟩
  rw [power, size]
  exact domain.row_count_eq.symm

section

variable {words : WordEnumeration} {enumeration : Enumeration}

theorem Carries.few (carries : words.Carries enumeration) (few : enumeration.domain.size < 64) :
    words.domain.size < 64 := by
  rw [carries.domain]
  exact few

/-- The two differences never underflow, as there is a variable at the index. -/
theorem shift_eq (few : words.domain.size < 64) {index : Nat} (inside : index < words.domain.size) :
    ∃ amount, words.shift? index = some amount ∧
      amount.toNat = words.domain.size - 1 - index ∧ amount.toNat < 64 := by
  have size := to_nat_of_small few
  have position := to_nat_of_small (Nat.lt_trans inside few)
  obtain ⟨last, lastFound, lastEq⟩ :=
    Word.subtract (.ofNat words.domain.size) 1 (by rw [size, UInt64.toNat_one]; omega)
  rw [size, UInt64.toNat_one] at lastEq
  obtain ⟨amount, found, amountEq⟩ :=
    Word.subtract last (.ofNat index) (by rw [position]; omega)
  rw [lastEq, position] at amountEq
  refine ⟨amount, ?_, amountEq, by omega⟩
  unfold shift?
  rw [lastFound]
  exact found

theorem value_eq (few : words.domain.size < 64) {index : Nat} (inside : index < words.domain.size) :
    words.value? index = some (!words.row.toNat.testBit (words.domain.size - 1 - index)) := by
  obtain ⟨amount, found, amountEq, small⟩ := shift_eq few inside
  obtain ⟨digits, shifted, digitsEq⟩ := Word.shift_right words.row small
  have parity : (digits &&& 1).toNat =
      words.row.toNat / 2 ^ (words.domain.size - 1 - index) % 2 := by
    rw [UInt64.toNat_and, UInt64.toNat_one, Nat.and_one_is_mod, digitsEq,
      Nat.shiftRight_eq_div_pow, amountEq]
  have digit : (digits &&& 1 == 0) =
      !words.row.toNat.testBit (words.domain.size - 1 - index) := by
    rw [Nat.testBit_eq_decide_div_mod_eq, Bool.eq_iff_iff, beq_iff_eq, ← UInt64.toNat_inj, parity,
      UInt64.toNat_zero, Bool.not_eq_true', decide_eq_false_iff_not]
    omega
  unfold value?
  rw [found]
  change (words.row.shiftRight? amount).bind (fun digits => some (digits &&& 1 == 0)) = _
  rw [shifted, Option.bind_some, digit]

theorem map_m_eq_some {Item Value : Type} {find : Item → Option Value} {value : Item → Value}
    {items : List Item} (found : ∀ item ∈ items, find item = some (value item)) :
    items.mapM find = some (items.map value) := by
  induction items with
  | nil => rfl
  | cons item items induction =>
      have rest := induction fun other member => found other (List.mem_cons_of_mem item member)
      rw [List.mapM_cons, found item List.mem_cons_self, rest]
      rfl

theorem assignment_eq (few : words.domain.size < 64) :
    words.assignment? = some (words.domain.assignment words.row.toNat) := by
  have pairs : (words.domain.names.zipIdx.mapM fun entry => do
      let value ← words.value? entry.2
      return (entry.1, value)) =
      some (words.domain.names.zipIdx.map fun entry =>
        (entry.1, !words.row.toNat.testBit (words.domain.size - 1 - entry.2))) := by
    apply map_m_eq_some
    intro entry member
    rw [value_eq few (List.snd_lt_of_mem_zipIdx member)]
    rfl
  unfold assignment? Variables.assignment
  rw [pairs, List.mapIdx_eq_zipIdx_map]
  rfl

theorem next_of_finished (carries : words.Carries enumeration) (done : enumeration.next? = none) :
    words.next? = some none := by
  unfold Enumeration.next? at done
  split at done
  next => cases done
  next full =>
    have same : words.row = words.count := by
      have inRange := enumeration.inRange
      rw [← UInt64.toNat_inj, carries.row, carries.count]
      omega
    unfold next?
    rw [if_pos same]
    rfl

theorem next_carries (few : enumeration.domain.size < 64) (carries : words.Carries enumeration)
    {assignment : Assignment} {later : Enumeration}
    (found : enumeration.next? = some (assignment, later)) :
    ∃ laterWords, words.next? = some (some (assignment, laterWords)) ∧
      laterWords.Carries later := by
  unfold Enumeration.next? at found
  split at found
  next more =>
    cases found
    have below : words.row.toNat < words.count.toNat := by
      rw [carries.row, carries.count]
      exact more
    have apart : words.row ≠ words.count := by
      rintro same
      rw [same] at below
      exact Nat.lt_irrefl _ below
    have assigned : words.assignment? = some (enumeration.domain.assignment enumeration.row) := by
      rw [assignment_eq (carries.few few), carries.domain, carries.row]
    obtain ⟨row, advanced, rowEq⟩ := Word.successor below
    refine ⟨{ words with row := row }, ?_, carries.domain, ?_, carries.count⟩
    · unfold next?
      rw [if_neg apart, assigned, advanced]
      rfl
    · rw [rowEq, carries.row]
  next => cases found

theorem remaining_carries (carries : words.Carries enumeration) :
    ∃ rest, words.remaining? = some rest ∧ rest.toNat = enumeration.remaining := by
  have ordered : words.row.toNat ≤ words.count.toNat := by
    rw [carries.row, carries.count]
    exact enumeration.inRange
  obtain ⟨rest, found, restEq⟩ := Word.subtract words.count words.row ordered
  refine ⟨rest, found, ?_⟩
  rw [restEq, carries.row, carries.count, Enumeration.remaining]

end

inductive Reached (domain : Variables) : WordEnumeration → Prop where
  | start {words : WordEnumeration} (started : start? domain = some words) : Reached domain words
  | next {words later : WordEnumeration} {assignment : Assignment} (before : Reached domain words)
      (taken : words.next? = some (some (assignment, later))) : Reached domain later

theorem carries_of_reached {domain : Variables} {words : WordEnumeration}
    (few : domain.size < 64) (reached : Reached domain words) :
    ∃ enumeration : Enumeration, enumeration.domain = domain ∧ words.Carries enumeration := by
  induction reached with
  | start started =>
      obtain ⟨found, same, carries⟩ := carries_start few
      rw [started] at same
      cases same
      exact ⟨.start domain, rfl, carries⟩
  | @next words later assignment before taken induction =>
      obtain ⟨enumeration, rfl, carries⟩ := induction
      cases found : enumeration.next? with
      | none =>
          rw [next_of_finished carries found] at taken
          cases taken
      | some pair =>
          obtain ⟨handed, after⟩ := pair
          obtain ⟨laterWords, same, laterCarries⟩ := next_carries few carries found
          rw [taken] at same
          cases same
          exact ⟨after, Enumeration.domain_of_next found, laterCarries⟩

/-- No arithmetic of an enumeration leaves the range of words in the given state. -/
structure IsSafe (words : WordEnumeration) : Prop where
  count : words.count.toNat = 2 ^ words.domain.size
  shifts : ∀ index, index < words.domain.size → ∃ amount, words.shift? index = some amount ∧
    amount.toNat = words.domain.size - 1 - index ∧ amount.toNat < 64
  row : words.row ≤ words.count
  remaining : ∃ rest, words.remaining? = some rest ∧
    rest.toNat = words.count.toNat - words.row.toNat
  next : words.next?.isSome = true

theorem is_safe_of_carries {words : WordEnumeration} {enumeration : Enumeration}
    (few : enumeration.domain.size < 64) (carries : words.Carries enumeration) : words.IsSafe where
  count := by rw [carries.count, carries.domain, Variables.row_count_eq]
  shifts := by
    intro index inside
    exact shift_eq (carries.few few) inside
  row := by
    rw [UInt64.le_iff_toNat_le, carries.row, carries.count]
    exact enumeration.inRange
  remaining := by
    obtain ⟨rest, found, restEq⟩ := remaining_carries carries
    refine ⟨rest, found, ?_⟩
    rw [restEq, carries.count, carries.row, Enumeration.remaining]
  next := by
    cases found : enumeration.next? with
    | none =>
        rw [next_of_finished carries found]
        rfl
    | some pair =>
        obtain ⟨laterWords, same, _⟩ := next_carries few carries found
        rw [same]
        rfl

end WordEnumeration

/-- An enumeration of the variables starts in words, and in whatever state it then gets to, no
arithmetic leaves their range and the values are those of an enumeration without such a range. -/
structure Variables.FitWords (domain : Variables) : Prop where
  starts : ∃ words, WordEnumeration.start? domain = some words
  safe : ∀ words, WordEnumeration.Reached domain words →
    words.domain = domain ∧ words.IsSafe ∧ ∃ enumeration, words.Carries enumeration

theorem Variables.fit_words {domain : Variables} (few : domain.size < 64) : domain.FitWords where
  starts := by
    obtain ⟨words, started, _⟩ := WordEnumeration.carries_start few
    exact ⟨words, started⟩
  safe := by
    intro words reached
    obtain ⟨enumeration, rfl, carries⟩ := WordEnumeration.carries_of_reached few reached
    exact ⟨carries.domain, WordEnumeration.is_safe_of_carries few carries, enumeration, carries⟩

end Propositional
