import Mathlib.Algebra.Group.End
import Mathlib.Data.List.Infix
import Mathlib.Data.List.Nodup
import Propositional.Proofs.Continuation
import Propositional.Proofs.Interruption
import Propositional.Proofs.Lockstep
import Propositional.Proofs.Refusal

/-!
Renaming the variables. Apart from the letter which writes disjunction no letter is special: the
lexer, the declaration of names, reading, evaluation and tabulation do to a renamed input what they
do to the input itself, and their results and failures are renamed. Each stage commutes with the
renaming, so a table does. The terminator is not asked more or less often for it.
-/

namespace Propositional

set_option autoImplicit false

/-- A permutation of the letters that may be variables. -/
structure Renaming where
  letters : Equiv.Perm {character : Char // isVariable character = true}

namespace Renaming

/-- The renaming of all characters, which leaves those that cannot be variables as they are. -/
def character (rename : Renaming) : Equiv.Perm Char := Equiv.Perm.ofSubtype rename.letters

def characters (rename : Renaming) (text : List Char) : List Char := text.map rename.character

def text (rename : Renaming) (text : String) : String :=
  String.ofList (rename.characters text.toList)

def lexeme (rename : Renaming) (lexeme : Lexeme) : Lexeme :=
  ⟨lexeme.kind, rename.characters lexeme.spelling⟩

def token (rename : Renaming) (token : Token) : Token :=
  ⟨token.kind, rename.text token.literal, token.offset⟩

def source (rename : Renaming) : Source → Source
  | .text written => .text (rename.text written)
  | .tokens given => .tokens (given.map rename.token)

def formula (rename : Renaming) : Formula → Formula
  | .letter name => .letter (rename.character name)
  | .not operand => .not (rename.formula operand)
  | .binary connective left right =>
      .binary connective (rename.formula left) (rename.formula right)

def domain (rename : Renaming) (domain : Variables) : Variables :=
  ⟨domain.names.map rename.character, domain.distinct.map rename.character.injective⟩

def assignment (rename : Renaming) (assignment : Assignment) : Assignment :=
  ⟨assignment.pairs.map fun pair => (rename.character pair.1, pair.2)⟩

def table (rename : Renaming) (table : Table) : Table :=
  ⟨rename.domain table.domain, table.rows.map (.move rename.assignment)⟩

def classification (rename : Renaming) : Classification → Classification
  | .unsatisfiable => .unsatisfiable
  | .tautology => .tautology
  | .satisfiable witnesses => .satisfiable (witnesses.map rename.assignment)

/-- The same failure at the same place, about a renamed variable, name or literal. A character which
begins no lexeme is none of these. -/
def failure (rename : Renaming) : Failure → Failure
  | .unexpected literal offset => .unexpected (rename.text literal) offset
  | .invalidName name => .invalidName (rename.text name)
  | .duplicateName name => .duplicateName (rename.character name)
  | .undefined name => .undefined (rename.character name)
  | failure => failure

def Matches (rename : Renaming) (failure other : Failure) : Prop := other = rename.failure failure

def outcome {First Second : Type} (rename : Renaming) (change : First → Second) :
    Except Failure First → Except Failure Second
  | .ok value => .ok (change value)
  | .error failure => .error (rename.failure failure)

variable (rename : Renaming)

theorem corresponds_iff {First Second : Type} {change : First → Second}
    {first : Except Failure First} {second : Except Failure Second} :
    Corresponds rename.Matches change first second ↔
      second = rename.outcome change first := by
  constructor
  · intro corresponds
    cases corresponds with
    | value value => rfl
    | failure related =>
        rw [outcome]
        exact congrArg Except.error related
  · rintro rfl
    cases first with
    | ok value => exact .value value
    | error failure => exact .failure rfl

theorem outcome_bind {First Second Third Fourth : Type} {change : First → Second}
    {further : First → Except Failure Third} {furtherOther : Second → Except Failure Fourth}
    {furtherChange : Third → Fourth}
    (same : ∀ value, furtherOther (change value) = rename.outcome furtherChange (further value))
    (first : Except Failure First) :
    (rename.outcome change first).bind furtherOther =
      rename.outcome furtherChange (first.bind further) := by
  cases first with
  | ok value => exact same value
  | error failure => rfl

section

variable (character : Char)

theorem character_of_other (other : isVariable character = false) :
    rename.character character = character :=
  Equiv.Perm.ofSubtype_apply_of_not_mem _ (by simp [other])

theorem character_of_variable (valid : isVariable character = true) :
    isVariable (rename.character character) = true := by
  have moved : rename.character character = rename.letters ⟨character, valid⟩ :=
    Equiv.Perm.ofSubtype_apply_of_mem rename.letters valid
  rw [moved]
  exact (rename.letters ⟨character, valid⟩).2

/-- What does not tell one variable from another is not changed. -/
theorem property_of_character {Value : Type} {property : Char → Value} {value : Value}
    (uniform : ∀ character, isVariable character = true → property character = value) :
    property (rename.character character) = property character := by
  cases valid : isVariable character with
  | false => rw [rename.character_of_other character valid]
  | true => rw [uniform character valid, uniform _ (rename.character_of_variable character valid)]

theorem is_variable_character :
    isVariable (rename.character character) = isVariable character :=
  rename.property_of_character character fun _ valid => valid

theorem is_letter_character : isLetter (rename.character character) = isLetter character :=
  rename.property_of_character character fun _ valid => (Bool.and_eq_true_iff.1 valid).1

theorem is_blank_character : isBlank (rename.character character) = isBlank character := by
  apply rename.property_of_character
  intro other valid
  exact not_blank_of_is_letter other (Bool.and_eq_true_iff.1 valid).1

theorem utf8_size_character :
    (rename.character character).utf8Size = character.utf8Size := by
  apply rename.property_of_character
  intro other valid
  obtain ⟨_, greatest, _⟩ := (is_variable_iff other).1 valid
  rw [Char.utf8Size_eq_one_iff]
  exact Nat.le_trans greatest (by decide)

theorem character_eq_reserved_iff :
    rename.character character = reservedLetter ↔ character = reservedLetter := by
  have reserved : rename.character reservedLetter = reservedLetter :=
    rename.character_of_other _ (by decide)
  constructor
  · intro same
    exact rename.character.injective (same.trans reserved.symm)
  · rintro rfl
    exact reserved

end

theorem to_list_text (written : String) :
    (rename.text written).toList = rename.characters written.toList := String.toList_ofList

theorem byte_length_characters (written : List Char) :
    byteLength (rename.characters written) = byteLength written := by
  induction written with
  | nil => rfl
  | cons character rest induction =>
      change (rename.character character).utf8Size + byteLength (rename.characters rest) = _
      rw [utf8_size_character, induction, byteLength]

theorem lexeme_of_fixed {fixed : Lexeme} (member : fixed ∈ fixedLexemes) :
    rename.lexeme fixed = fixed := by
  have others : ∀ lexeme ∈ fixedLexemes,
      lexeme.spelling.all (fun character => !isVariable character) = true := by decide
  have same : rename.characters fixed.spelling = fixed.spelling := by
    conv_rhs => rw [← List.map_id fixed.spelling]
    apply List.map_congr_left
    intro character inside
    have other : isVariable character = false := by
      simpa using List.all_eq_true.1 (others fixed member) character inside
    exact rename.character_of_other character other
  rw [lexeme, same]

theorem is_lexeme_lexeme {given : Lexeme} (valid : IsLexeme given) :
    IsLexeme (rename.lexeme given) := by
  rcases valid with member | ⟨letter, valid, rfl⟩
  · rw [rename.lexeme_of_fixed member]
    exact .inl member
  · exact .inr ⟨rename.character letter, rename.character_of_variable letter valid, rfl⟩

theorem to_token_lexeme (given : Lexeme) (offset : Nat) :
    (rename.lexeme given).toToken offset = rename.token (given.toToken offset) := by
  simp only [Lexeme.toToken, lexeme, token, Lexeme.literal, text, String.toList_ofList]

theorem first_lexeme_absent {character : Char} {rest : List Char}
    (absent : firstLexeme? (character :: rest) = none) :
    firstLexeme? (rename.characters (character :: rest)) = none := by
  obtain ⟨untried, notLetter⟩ := (first_lexeme_eq_none_iff character rest).1 absent
  refine (first_lexeme_eq_none_iff _ (rename.characters rest)).2 ⟨?_, ?_⟩
  · intro fixed member starts
    rw [← rename.lexeme_of_fixed member] at starts
    have original : fixed.spelling <+: character :: rest :=
      (List.prefix_map_iff_of_injective rename.character.injective).1 starts
    exact untried fixed member original
  · rw [is_letter_character, notLetter]

theorem tokens_from_characters (offset : Nat) (written : List Char) :
    tokensFrom offset (rename.characters written) =
      rename.outcome (List.map rename.token) (tokensFrom offset written) := by
  induction written using text_induction generalizing offset with
  | nothing =>
      rw [characters, List.map_nil, tokensFrom]
      rfl
  | blank character rest blank induction =>
      have renamedBlank : isBlank (rename.character character) = true := by
        rw [is_blank_character, blank]
      have step := tokens_from_blank offset (rename.characters rest) renamedBlank
      rw [utf8_size_character, induction] at step
      rw [tokens_from_blank offset rest blank]
      exact step
  | refused character rest notBlank absent =>
      -- the character that is reported is no letter, so it is not renamed
      have notLetter := ((first_lexeme_eq_none_iff character rest).1 absent).2
      have other : isVariable character = false := by rw [isVariable, notLetter, Bool.false_and]
      have same := rename.character_of_other character other
      have renamedAbsent := rename.first_lexeme_absent absent
      rw [characters, List.map_cons, same] at renamedAbsent ⊢
      rw [tokens_from_refused offset notBlank renamedAbsent,
        tokens_from_refused offset notBlank absent]
      rfl
  | lexeme taken rest valid induction =>
      have step := tokens_from_lexeme offset (rename.lexeme taken)
        (rename.is_lexeme_lexeme valid) (rename.characters rest)
      rw [to_token_lexeme, lexeme, byte_length_characters, induction] at step
      rw [characters, List.map_append, tokens_from_lexeme offset taken valid]
      refine step.trans ?_
      cases tokensFrom (offset + byteLength taken.spelling) rest with
      | ok tokens => rfl
      | error failure => rfl

theorem to_tokens_source (given : Source) :
    (rename.source given).toTokens =
      rename.outcome (List.map rename.token) given.toTokens := by
  cases given with
  | text written =>
      change tokenize (rename.text written) = rename.outcome _ (tokenize written)
      rw [tokenize, to_list_text, tokens_from_characters, tokenize]
  | tokens given => rfl

theorem name_token (given : Token) :
    (rename.token given).name? = given.name?.map rename.character := by
  unfold Token.name? token
  cases given.kind with
  | letter =>
      simp only [to_list_text]
      exact List.head?_map
  | _ => rfl

theorem named_text (name : String) :
    Variables.named (rename.text name) =
      rename.outcome rename.character (Variables.named name) := by
  unfold Variables.named
  rw [to_list_text]
  match spelled : name.toList with
  | [] => rfl
  | [character] =>
      simp only [characters, List.map_cons, List.map_nil, character_eq_reserved_iff,
        is_variable_character]
      by_cases reserved : character = reservedLetter
      · simp only [if_pos reserved]
        rfl
      · simp only [if_neg reserved]
        by_cases valid : isVariable character = true
        · simp only [if_pos valid]
          rfl
        · simp only [if_neg valid]
          rfl
  | _ :: _ :: _ => rfl

theorem mem_map_character_iff (name : Variable) (names : List Variable) :
    rename.character name ∈ names.map rename.character ↔ name ∈ names :=
  List.mem_map_of_injective rename.character.injective

theorem append_domain (given : Variables) (name : Variable) :
    (rename.domain given).append (rename.character name) =
      rename.outcome rename.domain (given.append name) := by
  by_cases member : name ∈ given.names
  · have refused := (given.append_eq_error_iff name _).2 ⟨member, rfl⟩
    have renamedMember := (rename.mem_map_character_iff name given.names).2 member
    rw [refused]
    exact ((rename.domain given).append_eq_error_iff _ _).2 ⟨renamedMember, rfl⟩
  · have added : given.append name = .ok _ := dif_neg member
    rw [added, outcome, Variables.append_eq_ok_iff]
    exact List.map_append

theorem declare_all_domain (given : Variables) (names : List String) :
    (rename.domain given).declareAll (names.map rename.text) =
      rename.outcome rename.domain (given.declareAll names) := by
  induction names generalizing given with
  | nil => rfl
  | cons name names induction =>
      rw [List.map_cons, Variables.declare_all_cons, Variables.declare_all_cons]
      have next : (rename.domain given).declareNext (rename.text name) =
          rename.outcome rename.domain (given.declareNext name) := by
        unfold Variables.declareNext
        rw [named_text]
        exact rename.outcome_bind (rename.append_domain given) _
      rw [next]
      exact rename.outcome_bind induction _

theorem declare_names (limit : Nat) (names : List String) :
    Variables.declare limit (names.map rename.text) =
      rename.outcome rename.domain (Variables.declare limit names) := by
  unfold Variables.declare
  rw [List.length_map]
  by_cases exceeds : limit < names.length
  · rw [if_pos exceeds, if_pos exceeds]
    rfl
  · rw [if_neg exceeds, if_neg exceeds]
    exact rename.declare_all_domain .empty names

theorem erase_dups_map (names : List Variable) :
    (names.map rename.character).eraseDups = names.eraseDups.map rename.character := by
  match names with
  | [] => rfl
  | name :: rest =>
      have kept : (fun other => !other == rename.character name) ∘ rename.character =
          fun other => !other == name := by
        funext other
        simp [rename.character.injective.eq_iff]
      rw [List.map_cons, List.eraseDups_cons, List.eraseDups_cons, List.filter_map, kept,
        erase_dups_map, List.map_cons]
termination_by names.length
decreasing_by exact Nat.lt_succ_of_le (List.length_filter_le _ _)

theorem infer_tokens (limit : Nat) (tokens : List Token) :
    Variables.infer limit (tokens.map rename.token) =
      rename.outcome rename.domain (Variables.infer limit tokens) := by
  have found : (tokens.map rename.token).filterMap Token.name? =
      (tokens.filterMap Token.name?).map rename.character := by
    rw [List.filterMap_map, List.map_filterMap]
    congr 1
    funext token
    exact rename.name_token token
  unfold Variables.infer
  simp only [found, erase_dups_map, List.length_map]
  by_cases exceeds : limit < (tokens.filterMap Token.name?).eraseDups.length
  · rw [if_pos exceeds, if_pos exceeds]
    rfl
  · rw [if_neg exceeds, if_neg exceeds]
    rfl

theorem declare_or_infer (calculator : Calculator) (names : Option (List String))
    (tokens : List Token) :
    calculator.declareOrInfer (names.map (List.map rename.text)) (tokens.map rename.token) =
      rename.outcome rename.domain (calculator.declareOrInfer names tokens) := by
  cases names with
  | some names => exact rename.declare_names _ names
  | none => exact rename.infer_tokens _ tokens

section

variable {State First Second : Type} {first : Interpretation State First}
variable {second : Interpretation State Second} {change : First → Second}
variable (letter : ∀ name state, second.letter (rename.character name) state =
  (rename.outcome change (first.letter name state).1, (first.letter name state).2))
variable (not : ∀ value state, second.not (change value) state =
  (change (first.not value state).1, (first.not value state).2))
variable (binary : ∀ connective left right state,
  second.binary connective (change left) (change right) state =
    (change (first.binary connective left right state).1,
      (first.binary connective left right state).2))
include letter not binary

theorem lockstep_of_letters :
    Lockstep first second (fun token other => other = rename.token token) rename.Matches
      rename.character change where
  kind given other same := by rw [same, token]
  name given other same := by rw [same, name_token]
  letter name state := by
    rw [letter]
    exact ⟨rename.corresponds_iff.2 rfl, rfl⟩
  not := not
  binary := binary
  incomplete := rfl
  unexpected given other same := by
    rw [same]
    rfl
  unclosed given other same := by
    rw [same]
    rfl
  trailing given other same := by
    rw [same]
    rfl

theorem read_all_map (tokens : List Token) (allowTrailing : Bool) (state : State) :
    (second.readAll (tokens.map rename.token) allowTrailing state).1 =
      rename.outcome change (first.readAll tokens allowTrailing state).1 := by
  have related : List.Forall₂ (fun token other => other = rename.token token) tokens
      (tokens.map rename.token) := by
    rw [List.forall₂_map_right_iff, List.forall₂_same]
    intro token _
    rfl
  have lockstep := rename.lockstep_of_letters letter not binary
  exact rename.corresponds_iff.1 (lockstep.read_all related allowTrailing state)

end

theorem of_tokens_map (tokens : List Token) (allowTrailing : Bool) :
    Formula.ofTokens (tokens.map rename.token) allowTrailing =
      rename.outcome rename.formula (Formula.ofTokens tokens allowTrailing) := by
  apply rename.read_all_map
  case letter => exact fun _ _ => rfl
  case not => exact fun _ _ => rfl
  case binary => exact fun _ _ _ _ => rfl

theorem lookup_map_pairs (name : Variable) (pairs : List (Variable × Bool)) :
    (pairs.map fun pair => (rename.character pair.1, pair.2)).lookup (rename.character name) =
      pairs.lookup name := by
  induction pairs with
  | nil => rfl
  | cons pair pairs induction =>
      have same : (rename.character name == rename.character pair.1) = (name == pair.1) := by
        simp [rename.character.injective.eq_iff]
      rw [List.map_cons, List.lookup_cons, List.lookup_cons, same, induction]

theorem lookup_assignment (given : Assignment) (name : Variable) :
    (rename.assignment given).valuation.lookup (rename.character name) =
      rename.outcome id (given.valuation.lookup name) := by
  have same : (rename.assignment given).valuation (rename.character name) =
      given.valuation name := rename.lookup_map_pairs name given.pairs
  unfold Valuation.lookup
  rw [same]
  cases given.valuation name <;> rfl

theorem evaluate_tokens_map (given : Assignment) (tokens : List Token) (allowTrailing : Bool) :
    evaluateTokens (rename.assignment given).valuation (tokens.map rename.token)
        allowTrailing =
      rename.outcome id (evaluateTokens given.valuation tokens allowTrailing) := by
  apply rename.read_all_map
  case letter =>
    intro name state
    exact congrArg (·, state) (rename.lookup_assignment given name)
  case not => exact fun _ _ => rfl
  case binary => exact fun _ _ _ _ => rfl

theorem evaluate_formula (given : Assignment) (tree : Formula) :
    (rename.formula tree).evaluate (rename.assignment given).valuation =
      rename.outcome id (tree.evaluate given.valuation) := by
  induction tree with
  | letter name => exact rename.lookup_assignment given name
  | not operand induction =>
      rw [formula, Formula.evaluate, Formula.evaluate, induction]
      cases operand.evaluate given.valuation <;> rfl
  | binary connective left right leftInduction rightInduction =>
      rw [formula, Formula.evaluate, Formula.evaluate, leftInduction, rightInduction]
      cases left.evaluate given.valuation with
      | error failure => rfl
      | ok value => cases right.evaluate given.valuation <;> rfl

theorem assignments_domain (given : Variables) :
    (rename.domain given).assignments = given.assignments.map rename.assignment := by
  have size : (rename.domain given).size = given.size := List.length_map _
  unfold Variables.assignments
  rw [Variables.rowCount, size, List.map_map]
  apply List.map_congr_left
  intro row _
  unfold Variables.assignment
  rw [size]
  apply congrArg Assignment.mk
  apply List.ext_getElem
  · simp [domain]
  · intro index inside otherInside
    simp [domain]

theorem table_of_tokens (calculator : Calculator) (tokens : List Token) (given : Variables) :
    calculator.tableOfTokens (tokens.map rename.token) (rename.domain given) =
      (rename.outcome rename.table (calculator.tableOfTokens tokens given).1,
        (calculator.tableOfTokens tokens given).2) := by
  have terminated : rename.Matches .terminated .terminated := rfl
  have tables (rows : List Row) :
      (⟨rename.domain given, rows.map (.move rename.assignment)⟩ : Table) =
        rename.table ⟨given, rows⟩ := rfl
  have read : Corresponds rename.Matches rename.formula (calculator.formula tokens)
      (calculator.formula (tokens.map rename.token)) :=
    rename.corresponds_iff.2 (rename.of_tokens_map tokens _)
  obtain ⟨outcomes, calculators⟩ := Calculator.table_of_tokens_alongside terminated calculator
    (rename.assignments_domain given) tables
    (fun assignment => rename.corresponds_iff.2 (rename.evaluate_tokens_map assignment tokens _))
    read (fun tree assignment => rename.corresponds_iff.2 (rename.evaluate_formula assignment tree))
  exact Prod.ext (rename.corresponds_iff.1 outcomes) calculators

theorem table_eq (calculator : Calculator) (given : Source) (names : Option (List String)) :
    calculator.table (rename.source given) (names.map (List.map rename.text)) =
      (rename.outcome rename.table (calculator.table given names).1,
        (calculator.table given names).2) := by
  have renamedCut := rename.to_tokens_source given
  cases cut : given.toTokens with
  | error failure =>
      rw [cut] at renamedCut
      rw [Calculator.table_of_cut_fault names cut, Calculator.table_of_cut_fault _ renamedCut]
      rfl
  | ok tokens =>
      rw [cut] at renamedCut
      have renamedDeclared := rename.declare_or_infer calculator names tokens
      cases declared : calculator.declareOrInfer names tokens with
      | error failure =>
          rw [declared] at renamedDeclared
          rw [Calculator.table_of_declare_fault cut declared,
            Calculator.table_of_declare_fault renamedCut renamedDeclared]
          rfl
      | ok domain =>
          rw [declared] at renamedDeclared
          rw [Calculator.table_of_declared cut declared,
            Calculator.table_of_declared renamedCut renamedDeclared, table_of_tokens]

theorem classification_table (given : Table) :
    (rename.table given).classification = rename.classification given.classification := by
  have values : Row.value ∘ Row.move rename.assignment = Row.value := rfl
  have trueRows : (rename.table given).trueRows =
      given.trueRows.map (.move rename.assignment) := by
    rw [Table.trueRows, table, List.filter_map, values, Table.trueRows]
  have all : (rename.table given).rows.all Row.value = given.rows.all Row.value := by
    rw [table, List.all_map, values]
  unfold Table.classification
  rw [trueRows, all, List.isEmpty_map]
  by_cases none : given.trueRows.isEmpty = true
  · rw [if_pos none, if_pos none]
    rfl
  · rw [if_neg none, if_neg none]
    by_cases every : given.rows.all Row.value = true
    · rw [if_pos every, if_pos every]
      rfl
    · rw [if_neg every, if_neg every]
      simp only [classification, List.map_map]
      rfl

theorem name_classification (given : Classification) :
    (rename.classification given).name = given.name := by
  cases given <;> rfl

theorem classify_eq (calculator : Calculator) (given : Source) (names : Option (List String)) :
    calculator.classify (rename.source given) (names.map (List.map rename.text)) =
      (rename.outcome rename.classification (calculator.classify given names).1,
        (calculator.classify given names).2) := by
  unfold Calculator.classify
  rw [table_eq]
  obtain ⟨found, later⟩ := calculator.table given names
  cases found with
  | error failure => rfl
  | ok table => exact congrArg (Except.ok ·, later) (rename.classification_table table)

end Renaming

/-- Renaming the variables in a formula and in its names renames the table and its classification,
or else the failure. The values on the rows, the name of the classification and the questions put to
the terminator stay the same. -/
theorem renaming_commutes_with_tabulation (rename : Renaming) (calculator : Calculator)
    (given : Source) (names : Option (List String)) :
    calculator.table (rename.source given) (names.map (List.map rename.text)) =
      (rename.outcome rename.table (calculator.table given names).1,
        (calculator.table given names).2) ∧
    calculator.classify (rename.source given) (names.map (List.map rename.text)) =
      (rename.outcome rename.classification (calculator.classify given names).1,
        (calculator.classify given names).2) ∧
    (calculator.classify (rename.source given) (names.map (List.map rename.text))).1.map
        Classification.name =
      rename.outcome id ((calculator.classify given names).1.map Classification.name) := by
  refine ⟨rename.table_eq calculator given names, rename.classify_eq calculator given names, ?_⟩
  rw [rename.classify_eq]
  cases (calculator.classify given names).1 with
  | error failure => rfl
  | ok found => exact congrArg Except.ok (rename.name_classification found)

/-- Two variables change places. The connective is written with a letter too, and stays. -/
example :
    (⟨Equiv.swap ⟨'p', by decide⟩ ⟨'q', by decide⟩⟩ : Renaming).text "~p v (q -> r)" =
      "~q v (p -> r)" := by
  decide +kernel

end Propositional
