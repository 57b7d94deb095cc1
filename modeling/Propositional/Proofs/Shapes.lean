import Propositional.Proofs.Inference
import Propositional.Proofs.Lockstep

/-!
What is found by the shapes of tokens, which are their kinds and, for letters, their first characters.
The rest of a literal and the place of a token have no part in reading, evaluating, inferring or
tabulating. They are only copied into the report of a fault, and then from the one token that the
fault is about, which is at the same index whatever the tokens say of themselves.
-/

namespace Propositional

set_option autoImplicit false

open Interpretation (construction evaluation)

/-- A fault, with the index of the token that it is reported for. A failure that says nothing of a
token is a fault by itself. -/
inductive Fault where
  | plain (failure : Failure)
  | unexpected (index : Nat)
  | unclosed (index : Nat)
  | trailing (index : Nat)

/-- The report of a fault has the literal and the place of the token at its index. -/
inductive Fault.Reports (tokens : List Token) : Fault → Failure → Prop where
  | plain {failure : Failure} (placeless : failure.offset? = none) :
      Reports tokens (.plain failure) failure
  | unexpected {index : Nat} {token : Token} (found : tokens[index]? = some token) :
      Reports tokens (.unexpected index) (.unexpected token.literal token.offset)
  | unclosed {index : Nat} {token : Token} (found : tokens[index]? = some token) :
      Reports tokens (.unclosed index) (.unclosed token.offset)
  | trailing {index : Nat} {token : Token} (found : tokens[index]? = some token) :
      Reports tokens (.trailing index) (.trailing token.offset)

/-- For all tokens of the same shapes the outcome is the same value, or the report of the same fault
of theirs. -/
def FoundByShapes {Value : Type} (outcome : List Token → Except Failure Value)
    (tokens : List Token) : Prop :=
  (∃ value, ∀ others, others.map Token.shape = tokens.map Token.shape →
    outcome others = .ok value) ∨
  ∃ fault : Fault, ∀ others, others.map Token.shape = tokens.map Token.shape →
    ∃ failure, outcome others = .error failure ∧ fault.Reports others failure

def ReportedAlike (tokens others : List Token) (failure other : Failure) : Prop :=
  ∃ fault : Fault, fault.Reports tokens failure ∧ fault.Reports others other

structure SamePlace (tokens others : List Token) (token other : Token) : Prop where
  shape : other.shape = token.shape
  index : ∃ index : Nat, tokens[index]? = some token ∧ others[index]? = some other

section

variable {tokens others : List Token}

theorem same_places_of_shapes (same : others.map Token.shape = tokens.map Token.shape) :
    List.Forall₂ (SamePlace tokens others) tokens others := by
  have lengths : tokens.length = others.length := by
    have counted := congrArg List.length same
    rw [List.length_map, List.length_map] at counted
    exact counted.symm
  rw [List.forall₂_iff_get]
  refine ⟨lengths, ?_⟩
  intro index inside otherInside
  refine ⟨?_, index, List.getElem?_eq_getElem inside, List.getElem?_eq_getElem otherInside⟩
  have shapes := congrArg (fun shapes : List (Kind × Option Variable) => shapes[index]?) same
  simpa [inside, otherInside] using shapes

theorem corresponds_self {Value : Type} {outcome : Except Failure Value}
    (placeless : ∀ failure, outcome = .error failure → failure.offset? = none) :
    Corresponds (ReportedAlike tokens others) id outcome outcome := by
  cases outcome with
  | ok value => exact .value value
  | error failure =>
      have plain := placeless failure rfl
      exact .failure ⟨.plain failure, .plain plain, .plain plain⟩

theorem lockstep_of_shapes {State Value : Type} {interpretation : Interpretation State Value}
    (placeless : ∀ name state failure, (interpretation.letter name state).1 = .error failure →
      failure.offset? = none) :
    Lockstep interpretation interpretation (SamePlace tokens others) (ReportedAlike tokens others)
      id id where
  kind token other same := congrArg Prod.fst same.shape
  name token other same := by
    rw [Option.map_id]
    exact congrArg Prod.snd same.shape
  letter name state := ⟨corresponds_self (placeless name state), rfl⟩
  not value state := rfl
  binary connective left right state := rfl
  incomplete := ⟨.plain .incomplete, .plain rfl, .plain rfl⟩
  unexpected token other same := by
    obtain ⟨index, found, otherFound⟩ := same.index
    exact ⟨.unexpected index, .unexpected found, .unexpected otherFound⟩
  unclosed token other same := by
    obtain ⟨index, found, otherFound⟩ := same.index
    exact ⟨.unclosed index, .unclosed found, .unclosed otherFound⟩
  trailing token other same := by
    obtain ⟨index, found, otherFound⟩ := same.index
    exact ⟨.trailing index, .trailing found, .trailing otherFound⟩

variable (same : others.map Token.shape = tokens.map Token.shape)
include same

theorem of_tokens_corresponds (allowTrailing : Bool) :
    Corresponds (ReportedAlike tokens others) id (Formula.ofTokens tokens allowTrailing)
      (Formula.ofTokens others allowTrailing) := by
  have lockstep : Lockstep construction construction (SamePlace tokens others)
      (ReportedAlike tokens others) id id := by
    apply lockstep_of_shapes
    intro name state failure failed
    cases failed
  exact lockstep.read_all (same_places_of_shapes same) allowTrailing ()

theorem evaluate_tokens_corresponds (valuation : Valuation) (allowTrailing : Bool) :
    Corresponds (ReportedAlike tokens others) id (evaluateTokens valuation tokens allowTrailing)
      (evaluateTokens valuation others allowTrailing) := by
  have lockstep : Lockstep (evaluation valuation) (evaluation valuation) (SamePlace tokens others)
      (ReportedAlike tokens others) id id := by
    apply lockstep_of_shapes
    intro name state failure failed
    change valuation.lookup name = .error failure at failed
    unfold Valuation.lookup at failed
    cases found : valuation name with
    | some value =>
        rw [found] at failed
        cases failed
    | none =>
        rw [found] at failed
        cases failed
        rfl
  exact lockstep.read_all (same_places_of_shapes same) allowTrailing ()

theorem infer_corresponds (limit : Nat) :
    Corresponds (ReportedAlike tokens others) id (Variables.infer limit tokens)
      (Variables.infer limit others) := by
  have names (list : List Token) :
      list.filterMap Token.name? = (list.map Token.shape).filterMap Prod.snd := by
    rw [List.filterMap_map]
    rfl
  have inferred : Variables.infer limit others = Variables.infer limit tokens := by
    simp only [Variables.infer, names, same]
  rw [inferred]
  apply corresponds_self
  intro failure refused
  rw [Variables.infer_error refused]
  rfl

theorem table_of_tokens_corresponds (calculator : Calculator) (domain : Variables) :
    Corresponds (ReportedAlike tokens others) id (calculator.tableOfTokens tokens domain).1
        (calculator.tableOfTokens others domain).1 ∧
      (calculator.tableOfTokens others domain).2 = (calculator.tableOfTokens tokens domain).2 := by
  have terminated : ReportedAlike tokens others .terminated .terminated :=
    ⟨.plain .terminated, .plain rfl, .plain rfl⟩
  have assignments : domain.assignments = domain.assignments.map id := (List.map_id _).symm
  have tables (rows : List Row) : (⟨domain, rows.map (.move id)⟩ : Table) = id ⟨domain, rows⟩ :=
    congrArg (Table.mk domain) (List.map_id rows)
  have read : Corresponds (ReportedAlike tokens others) id (calculator.formula tokens)
    (calculator.formula others) := of_tokens_corresponds same _
  apply Calculator.table_of_tokens_alongside terminated calculator assignments tables
  case reparsed =>
    intro assignment
    exact evaluate_tokens_corresponds same assignment.valuation _
  case read => exact read
  case evaluated =>
    intro formula assignment
    apply corresponds_self
    intro failure failed
    rw [Formula.evaluate_eq] at failed
    cases undefined : assignment.valuation.firstUndefined? formula.letters with
    | some name =>
        rw [undefined] at failed
        cases failed
        rfl
    | none =>
        rw [undefined] at failed
        cases failed

end

def numbered (tokens : List Token) : List Token :=
  tokens.mapIdx fun index token => { token with offset := index }

theorem shapes_numbered (tokens : List Token) :
    (numbered tokens).map Token.shape = tokens.map Token.shape := by
  apply List.ext_getElem
  · simp [numbered]
  · intro index inside otherInside
    simp [numbered, Token.shape, Token.name?]

theorem offset_of_numbered {tokens : List Token} {index : Nat} {token : Token}
    (found : (numbered tokens)[index]? = some token) : token.offset = index := by
  rw [numbered, List.getElem?_mapIdx, Option.map_eq_some_iff] at found
  obtain ⟨original, _, rfl⟩ := found
  rfl

def Fault.ofNumbered : Failure → Fault
  | .unexpected _ offset => .unexpected offset
  | .unclosed offset => .unclosed offset
  | .trailing offset => .trailing offset
  | failure => .plain failure

theorem Fault.eq_of_numbered {tokens : List Token} {fault : Fault} {failure : Failure}
    (reports : fault.Reports (numbered tokens) failure) : fault = .ofNumbered failure := by
  cases reports with
  | @plain failure placeless =>
      cases failure with
      | unclosed offset => cases placeless
      | unexpected literal offset => cases placeless
      | trailing offset => cases placeless
      | _ => rfl
  | unexpected found => rw [ofNumbered, offset_of_numbered found]
  | unclosed found => rw [ofNumbered, offset_of_numbered found]
  | trailing found => rw [ofNumbered, offset_of_numbered found]

/-- The fault does not depend on which two lists are compared, since numbered tokens tell its
index. -/
theorem found_by_shapes {Value : Type} {outcome : List Token → Except Failure Value}
    (corresponds : ∀ tokens others : List Token,
      others.map Token.shape = tokens.map Token.shape →
      Corresponds (ReportedAlike tokens others) id (outcome tokens) (outcome others))
    (tokens : List Token) : FoundByShapes outcome tokens := by
  have along (others : List Token) (same : others.map Token.shape = tokens.map Token.shape) :=
    corresponds (numbered tokens) others (by rw [shapes_numbered, same])
  unfold FoundByShapes
  cases found : outcome (numbered tokens) with
  | ok value =>
      left
      refine ⟨value, ?_⟩
      intro others same
      have corresponding := along others same
      rw [found] at corresponding
      generalize outcome others = other at corresponding
      cases corresponding
      rfl
  | error failure =>
      right
      refine ⟨.ofNumbered failure, ?_⟩
      intro others same
      have corresponding := along others same
      rw [found] at corresponding
      generalize outcome others = other at corresponding
      cases corresponding with
      | @failure _ other related =>
          obtain ⟨fault, reports, otherReports⟩ := related
          rw [← Fault.eq_of_numbered reports]
          exact ⟨other, rfl, otherReports⟩

/-- Whatever is read, evaluated, inferred or tabulated of some tokens depends on their shapes alone,
and so does what fails and the index of the token for which it is reported. Literals and places are
in the report. The questions put to the terminator are the same. -/
theorem marks_matter_in_reports_only (tokens : List Token) :
    (∀ allowTrailing, FoundByShapes (Formula.ofTokens · allowTrailing) tokens) ∧
    (∀ valuation allowTrailing, FoundByShapes (evaluateTokens valuation · allowTrailing) tokens) ∧
    (∀ limit, FoundByShapes (Variables.infer limit) tokens) ∧
    ∀ (calculator : Calculator) (domain : Variables),
      FoundByShapes (fun others => (calculator.tableOfTokens others domain).1) tokens ∧
      ∀ others, others.map Token.shape = tokens.map Token.shape →
        (calculator.tableOfTokens others domain).2 = (calculator.tableOfTokens tokens domain).2 := by
  refine ⟨?trees, ?values, ?names, ?tables⟩
  case trees =>
    intro allowTrailing
    exact found_by_shapes (fun _ _ same => of_tokens_corresponds same allowTrailing) tokens
  case values =>
    intro valuation allowTrailing
    exact found_by_shapes
      (fun _ _ same => evaluate_tokens_corresponds same valuation allowTrailing) tokens
  case names =>
    intro limit
    exact found_by_shapes (fun _ _ same => infer_corresponds same limit) tokens
  case tables =>
    intro calculator domain
    refine ⟨?_, fun others same => (table_of_tokens_corresponds same calculator domain).2⟩
    exact found_by_shapes
      (fun _ _ same => (table_of_tokens_corresponds same calculator domain).1) tokens

/-- Two lists of the same shapes. The second token of either is reported, with its own place. -/
example :
    Formula.ofTokens [⟨.letter, "p", 0⟩, ⟨.closing, ")", 2⟩] false = .error (.trailing 2) ∧
      Formula.ofTokens [⟨.letter, "pear", 9⟩, ⟨.closing, "", 4⟩] false = .error (.trailing 4) := by
  constructor <;> decide +kernel

end Propositional
