import Propositional.Failure
import Propositional.Token.Basic

/-!
Lists of distinct variables, whose order fixes the order of the assignments to them. They
are declared by names, or inferred from the letters among some tokens, and either way there
may be no more of them than a limit allows.
-/

namespace Propositional

set_option autoImplicit false

structure Variables where
  names : List Variable
  distinct : names.Nodup
  deriving DecidableEq

theorem nodup_erase_dups {Item : Type} [BEq Item] [LawfulBEq Item] (items : List Item) :
    items.eraseDups.Nodup := by
  match items with
  | [] => simp
  | item :: rest =>
      rw [List.eraseDups_cons, List.nodup_cons]
      refine ⟨by simp, nodup_erase_dups _⟩
termination_by items.length
decreasing_by exact Nat.lt_succ_of_le (List.length_filter_le _ _)

namespace Variables

def empty : Variables := ⟨[], List.nodup_nil⟩

def size (domain : Variables) : Nat := domain.names.length

def display (domain : Variables) : String :=
  String.ofList (domain.names.intersperse ' ')

def named (name : String) : Except Failure Variable :=
  match name.toList with
  | [character] =>
      if character = reservedLetter then .error .reservedName
      else if isVariable character then .ok character
      else .error (.invalidName name)
  | _ => .error (.invalidName name)

def append (domain : Variables) (name : Variable) : Except Failure Variables :=
  if member : name ∈ domain.names then
    .error (.duplicateName name)
  else
    .ok ⟨domain.names ++ [name], by
      rw [List.nodup_append]
      refine ⟨domain.distinct, by simp, ?_⟩
      simp only [List.mem_singleton]
      rintro first firstMember second rfl rfl
      exact member firstMember⟩

def declareAll (domain : Variables) : List String → Except Failure Variables
  | [] => .ok domain
  | name :: names => do
      let added ← named name
      let extended ← domain.append added
      extended.declareAll names

/-- Declares variables by their names. How many they are is looked at before any name is. -/
def declare (limit : Nat) (names : List String) : Except Failure Variables :=
  if limit < names.length then .error (.tooMany names.length limit) else empty.declareAll names

def infer (limit : Nat) (tokens : List Token) : Except Failure Variables :=
  let names := (tokens.filterMap Token.name?).eraseDups
  if limit < names.length then .error (.tooMany names.length limit)
  else .ok ⟨names, nodup_erase_dups _⟩

end Variables

end Propositional
