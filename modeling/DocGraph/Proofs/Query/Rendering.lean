import DocGraph.Query.Statement
import DocGraph.Proofs.Outcome
import DocGraph.Proofs.Query.Meaning
import DocGraph.Proofs.Query.Numbering
import Mathlib.Data.List.Forall2

namespace DocGraph

open Json
open Token (Spells Leads Closes)

namespace Atom

def operation : Atom → Operation
  | relation relator _ _ => .relation relator false
  | lowerRelation relator _ _ => .relation relator true
  | sameText _ _ => .sameText
  | contains ignoreCase _ _ => .contains ignoreCase
  | member ignoreCase _ _ => .member ignoreCase
  | defined _ _ => .defined

def operands : Atom → String × String
  | relation _ left right => (left, right)
  | lowerRelation _ left right => (left, right)
  | sameText left right => (left, right)
  | contains _ left right => (left, right)
  | member _ array element => (array, element)
  | defined left right => (left, right)

/-- A function of two operands, up to what comes after the second one. -/
theorem call_spells {name ending left right : String} {head tail first second : List Token}
    (opened : Leads name head) (spellsLeft : Spells left first) (spellsRight : Spells right second)
    (closed : Closes ending tail) :
    Spells (name ++ left ++ ", " ++ right ++ ending)
      (head ++ first ++ [.comma] ++ second ++ tail) := by
  have comma : Closes ", " [.comma] ∧ Leads ", " [.comma] := by decide
  exact ((Spells.lead opened spellsLeft).between comma.1 comma.2 spellsRight).close closed

theorem spells (atom : Atom) {left right : Token} (first : Spells atom.operands.1 [left])
    (second : Spells atom.operands.2 [right]) :
    Spells atom.text (atom.operation.tokens left right) := by
  cases atom with
  | relation relator l r =>
      have parts : text (relation relator l r) = l ++ (" " ++ relator.text ++ " ") ++ r := by
        change l ++ " " ++ relator.text ++ " " ++ r = _
        simp only [String.append_assoc]
      have spaced : Leads (" " ++ relator.text ++ " ") [.symbol relator.spelling] ∧
          Closes (" " ++ relator.text ++ " ") [.symbol relator.spelling] := by
        cases relator <;> decide
      rw [parts]
      exact first.between spaced.2 spaced.1 second
  | lowerRelation relator l r =>
      have parts : text (lowerRelation relator l r) =
          "LOWER(" ++ l ++ (") " ++ relator.text ++ " LOWER(") ++ r ++ ")" := by
        change "LOWER(" ++ l ++ ") " ++ relator.text ++ " LOWER(" ++ r ++ ")" = _
        simp only [String.append_assoc]
      have spaced : Leads (") " ++ relator.text ++ " LOWER(")
            [.closing, .symbol relator.spelling, .word "LOWER", .opening] ∧
          Closes (") " ++ relator.text ++ " LOWER(")
            [.closing, .symbol relator.spelling, .word "LOWER", .opening] := by
        cases relator <;> decide
      have opened : Leads "LOWER(" [.word "LOWER", .opening] := by decide
      have closed : Closes ")" [.closing] := by decide
      rw [parts]
      exact (((Spells.lead opened first).between spaced.2 spaced.1 second).close closed)
  | sameText l r =>
      have opened : Leads "STRINGEQUALS(" [.word "STRINGEQUALS", .opening] := by decide
      have closed : Closes ", true)" [.comma, .literal true, .closing] := by decide
      exact call_spells opened first second closed
  | contains ignoreCase l r =>
      have opened : Leads "CONTAINS(" [.word "CONTAINS", .opening] := by decide
      cases ignoreCase with
      | false =>
          have closed : Closes ")" [.closing] := by decide
          exact call_spells opened first second closed
      | true =>
          have closed : Closes ", true)" [.comma, .literal true, .closing] := by decide
          exact call_spells opened first second closed
  | member ignoreCase l r =>
      cases ignoreCase with
      | false =>
          have opened : Leads "ARRAY_CONTAINS(" [.word "ARRAY_CONTAINS", .opening] := by decide
          have closed : Closes ")" [.closing] := by decide
          exact call_spells opened first second closed
      | true =>
          have opened : Leads "EXISTS(SELECT VALUE v FROM v IN "
              [.word "EXISTS", .opening, .word "SELECT", .word "VALUE", .word "v", .word "FROM",
                .word "v", .word "IN"] := by decide
          have filtered : Closes " WHERE STRINGEQUALS(v, "
                [.word "WHERE", .word "STRINGEQUALS", .opening, .word "v", .comma] ∧
              Leads " WHERE STRINGEQUALS(v, "
                [.word "WHERE", .word "STRINGEQUALS", .opening, .word "v", .comma] := by decide
          have closed : Closes ", true))" [.comma, .literal true, .closing, .closing] := by decide
          exact ((Spells.lead opened first).between filtered.1 filtered.2 second).close closed
  | defined l r =>
      have opened : Leads "IS_DEFINED(" [.word "IS_DEFINED", .opening] := by decide
      have compared : Closes ") = " [.closing, .symbol "="] ∧
          Leads ") = " [.closing, .symbol "="] := by decide
      exact (Spells.lead opened first).between compared.1 compared.2 second

end Atom

/-- What the text of a condition says, as a function of the truth of comparisons. -/
def Means (precedence : Precedence) (text : String) (value : (Fact → Bool) → Bool) : Prop :=
  ∃ tokens, Spells text tokens ∧ ∀ truth, Reading truth precedence tokens (value truth)

namespace Means

variable {text back : String} {value other : (Fact → Bool) → Bool} {texts : List String}
  {values : List ((Fact → Bool) → Bool)}

theorem fact {fact : Fact} (spells : Spells text fact.tokens) :
    Means .factor text fun truth => truth fact :=
  ⟨fact.tokens, spells, fun _ => .fact fact⟩

theorem literal {constant : Bool} (spells : Spells text [.literal constant]) :
    Means .factor text fun _ => constant :=
  ⟨_, spells, fun _ => .literal constant⟩

theorem not (means : Means .factor text value) :
    Means .factor ("NOT " ++ text) fun truth => !value truth := by
  obtain ⟨tokens, spells, reading⟩ := means
  have negation : Leads "NOT " [.notWord] := by decide
  exact ⟨_, Spells.lead negation spells, fun truth => .not (reading truth)⟩

theorem group (means : Means .disjunction text value) :
    Means .factor ("(" ++ text ++ ")") value := by
  obtain ⟨tokens, spells, reading⟩ := means
  have opened : Leads "(" [.opening] := by decide
  have closed : Closes ")" [.closing] := by decide
  exact ⟨_, (Spells.lead opened spells).close closed, fun truth => .group (reading truth)⟩

theorem conjunction_of_factor (means : Means .factor text value) :
    Means .conjunction text value := by
  obtain ⟨tokens, spells, reading⟩ := means
  exact ⟨tokens, spells, fun truth => .factor (reading truth)⟩

theorem disjunction_of_conjunction (means : Means .conjunction text value) :
    Means .disjunction text value := by
  obtain ⟨tokens, spells, reading⟩ := means
  exact ⟨tokens, spells, fun truth => .conjunction (reading truth)⟩

theorem and (first : Means .conjunction text value) (second : Means .factor back other) :
    Means .conjunction (text ++ " AND " ++ back) fun truth => value truth && other truth := by
  obtain ⟨front, spells, reading⟩ := first
  obtain ⟨tokens, spells', reading'⟩ := second
  have joined := spells.between (by decide : Closes " AND " [.andWord]) (by decide) spells'
  rw [List.append_assoc] at joined
  exact ⟨_, joined, fun truth => .and (reading truth) (reading' truth)⟩

theorem or (first : Means .disjunction text value) (second : Means .factor back other) :
    Means .disjunction (text ++ " OR " ++ back) fun truth => value truth || other truth := by
  obtain ⟨front, spells, reading⟩ := first
  obtain ⟨tokens, spells', reading'⟩ := second
  have joined := spells.between (by decide : Closes " OR " [.orWord]) (by decide) spells'
  rw [List.append_assoc] at joined
  exact ⟨_, joined, fun truth => .or (reading truth) (.factor (reading' truth))⟩

/-- Factors that follow each other are read from left to right. -/
theorem conjunction (first : Means .conjunction text value)
    (others : List.Forall₂ (Means .factor) texts values) :
    Means .conjunction (" AND ".intercalate (text :: texts))
      fun truth => value truth && values.all (· truth) := by
  induction others generalizing text value with
  | nil => simpa using first
  | @cons second meaning rest meanings means _ ih =>
      have extended := ih (first.and means)
      rw [String.append_assoc, String.intercalate_cons_append, String.intercalate_cons_append,
        ← String.append_assoc, ← String.intercalate_cons_cons] at extended
      simpa [Bool.and_assoc] using extended

theorem disjunction (first : Means .disjunction text value)
    (others : List.Forall₂ (Means .factor) texts values) :
    Means .disjunction (" OR ".intercalate (text :: texts))
      fun truth => value truth || values.any (· truth) := by
  induction others generalizing text value with
  | nil => simpa using first
  | @cons second meaning rest meanings means _ ih =>
      have extended := ih (first.or means)
      rw [String.append_assoc, String.intercalate_cons_append, String.intercalate_cons_append,
        ← String.append_assoc, ← String.intercalate_cons_cons] at extended
      simpa [Bool.or_assoc] using extended

theorem all (parts : List.Forall₂ (Means .factor) texts values) (nonempty : texts ≠ []) :
    Means .conjunction (" AND ".intercalate texts) fun truth => values.all (· truth) := by
  cases parts with
  | nil => contradiction
  | cons first others => exact conjunction first.conjunction_of_factor others

theorem any (parts : List.Forall₂ (Means .factor) texts values) (nonempty : texts ≠ []) :
    Means .disjunction (" OR ".intercalate texts) fun truth => values.any (· truth) := by
  cases parts with
  | nil => contradiction
  | cons first others =>
      exact disjunction first.conjunction_of_factor.disjunction_of_conjunction others

theorem allGroup (parts : List.Forall₂ (Means .factor) texts values) :
    Means .factor (Condition.group " AND " "true" texts) fun truth => values.all (· truth) := by
  cases parts with
  | nil => exact literal (Spells.of_unquoted (by decide))
  | cons first others =>
      exact group (all (.cons first others) (by simp)).disjunction_of_conjunction

theorem anyGroup (parts : List.Forall₂ (Means .factor) texts values) :
    Means .factor (Condition.group " OR " "false" texts) fun truth => values.any (· truth) := by
  cases parts with
  | nil => exact literal (Spells.of_unquoted (by decide))
  | cons first others => exact group (any (.cons first others) (by simp))

end Means

namespace Clause

variable {clause : Clause} {fact : Fact}

theorem means (operation : clause.atom.operation = fact.operation)
    (first : Spells clause.atom.operands.1 [fact.left.token])
    (second : Spells clause.atom.operands.2 [fact.right.token]) :
    Means .factor clause.text fun truth => clause.negated ^^ truth fact := by
  have spells := clause.atom.spells first second
  rw [operation] at spells
  have positive : Means .factor clause.atom.text fun truth => truth fact := .fact spells
  rw [text]
  cases clause.negated with
  | false => simpa using positive
  | true => simpa using positive.not

theorem ofComparison_spec {test : Test} {column operand : String}
    (accepted : ofComparison test.comparison column operand test.value = .ok clause) :
    clause.negated = test.comparison.negates ∧
      clause.atom.operation = test.comparison.operation ∧
      clause.atom.operands =
        if test.searchesOperand then (operand, column) else (column, operand) := by
  obtain ⟨target, ⟨operator, ignoreCase⟩, value⟩ := test
  cases operator with
  | defined =>
      simp only [ofComparison] at accepted
      split at accepted <;> cases accepted
      exact ⟨rfl, rfl, rfl⟩
  | oneOf | noneOf =>
      cases accepted
      cases searched : value.isArray <;>
        simp [membership, searched, Comparison.negates, Comparison.operation, Test.searchesOperand,
          Operator.isPlural, Atom.operation, Atom.operands]
  | _ =>
      cases ignoreCase <;> cases accepted <;> exact ⟨rfl, rfl, rfl⟩

end Clause

namespace Catalog

variable (catalog : Catalog) (typename : String) (parameters : Parameters)

def columnOf (test : Test) : String :=
  match catalog.testColumn typename test with
  | .ok column => column
  | .error _ => ""

/-- Whether a test of a compiled filter holds, given the truth of comparisons. -/
def testHolds (truth : Fact → Bool) (test : Test) : Bool :=
  test.holdsOf truth (catalog.columnOf typename) fun test =>
    (parameters.nameOf? test.value).getD ""

variable {catalog typename parameters}

/-- A test compiles only if its column and its parameter are known. -/
theorem testClause_eq_ok {test : Test} {clause : Clause}
    (compiled : catalog.testClause typename parameters test = .ok clause) :
    ∃ column name, catalog.testColumn typename test = .ok column ∧
      parameters.nameOf? test.value = some name ∧
      Clause.ofComparison test.comparison (Column.reference column) name test.value =
        .ok clause := by
  rw [testClause] at compiled
  obtain ⟨column, resolved, compiled⟩ := bind_eq_ok.mp compiled
  cases named : parameters.nameOf? test.value with
  | none => simp [named] at compiled
  | some name =>
      rw [named] at compiled
      exact ⟨column, name, resolved, rfl, compiled⟩

theorem testClause_means {test : Test} {clause : Clause}
    (compiled : catalog.testClause typename parameters test = .ok clause) :
    Means .factor clause.text fun truth =>
      catalog.testHolds typename parameters truth test := by
  obtain ⟨column, name, resolved, named, accepted⟩ := testClause_eq_ok compiled
  obtain ⟨negated, operation, operands⟩ := Clause.ofComparison_spec accepted
  obtain ⟨place, _, rfl⟩ := Option.map_eq_some_iff.mp named
  have shape : ∀ truth, catalog.testHolds typename parameters truth test =
      (clause.negated ^^ truth (test.fact column (Parameters.nameAt place))) := by
    intro truth
    rw [testHolds, Test.holdsOf, columnOf, resolved, named, negated]
    rfl
  simp only [shape]
  have columnSpells := Spells.reference column
  have nameSpells := Spells.parameter place
  by_cases searched : test.searchesOperand = true
  · rw [if_pos searched] at operands
    rw [Test.fact, if_pos searched]
    refine Clause.means operation ?_ ?_
    · rw [operands]
      exact nameSpells
    · rw [operands]
      exact columnSpells
  · rw [if_neg searched] at operands
    rw [Test.fact, if_neg searched]
    refine Clause.means operation ?_ ?_
    · rw [operands]
      exact columnSpells
    · rw [operands]
      exact nameSpells

theorem conditions_cons_eq_ok {first : Filter} {rest : List Filter} {parts : List Condition}
    (compiled : catalog.conditions typename parameters (first :: rest) = .ok parts) :
    ∃ head tail, catalog.condition typename parameters first = .ok head ∧
      catalog.conditions typename parameters rest = .ok tail ∧ parts = head :: tail := by
  rw [conditions] at compiled
  obtain ⟨head, headed, compiled⟩ := bind_eq_ok.mp compiled
  obtain ⟨tail, tailed, compiled⟩ := bind_eq_ok.mp compiled
  exact ⟨head, tail, headed, tailed, (pure_eq_ok.mp compiled).symm⟩

mutual

theorem condition_means : ∀ (filter : Filter) {condition : Condition},
    catalog.condition typename parameters filter = .ok condition →
      Means .factor condition.text fun truth =>
        filter.holds (catalog.testHolds typename parameters truth)
  | .test test, condition, compiled => by
      rw [Catalog.condition] at compiled
      obtain ⟨clause, single, rfl⟩ := map_eq_ok.mp compiled
      exact testClause_means single
  | .all children, condition, compiled => by
      rw [Catalog.condition] at compiled
      obtain ⟨parts, inner, rfl⟩ := map_eq_ok.mp compiled
      have group := Means.allGroup (conditions_mean children inner)
      simpa [Condition.text, Filter.holds, Filter.allHold_eq_all, Function.comp_def] using group
  | .any children, condition, compiled => by
      rw [Catalog.condition] at compiled
      obtain ⟨parts, inner, rfl⟩ := map_eq_ok.mp compiled
      have group := Means.anyGroup (conditions_mean children inner)
      simpa [Condition.text, Filter.holds, Filter.anyHolds_eq_any, Function.comp_def] using group

theorem conditions_mean : ∀ (filters : List Filter) {parts : List Condition},
    catalog.conditions typename parameters filters = .ok parts →
      List.Forall₂ (Means .factor) (Condition.texts parts)
        (filters.map fun filter truth =>
          filter.holds (catalog.testHolds typename parameters truth))
  | [], parts, compiled => by
      obtain rfl : [] = parts := by simpa [conditions] using compiled
      exact .nil
  | first :: rest, parts, compiled => by
      obtain ⟨head, tail, headed, tailed, rfl⟩ := conditions_cons_eq_ok compiled
      exact .cons (condition_means first headed) (conditions_mean rest tailed)

end

mutual

theorem testClause_of_condition : ∀ (filter : Filter) {condition : Condition},
    catalog.condition typename parameters filter = .ok condition →
      ∀ test ∈ filter.tests, ∃ clause, catalog.testClause typename parameters test = .ok clause
  | .test single, condition, compiled => by
      intro test member
      obtain rfl : test = single := by simpa [Filter.tests] using member
      rw [Catalog.condition] at compiled
      obtain ⟨clause, known, _⟩ := map_eq_ok.mp compiled
      exact ⟨clause, known⟩
  | .all children, condition, compiled => by
      rw [Catalog.condition] at compiled
      obtain ⟨parts, inner, _⟩ := map_eq_ok.mp compiled
      exact testClause_of_conditions children inner
  | .any children, condition, compiled => by
      rw [Catalog.condition] at compiled
      obtain ⟨parts, inner, _⟩ := map_eq_ok.mp compiled
      exact testClause_of_conditions children inner

theorem testClause_of_conditions : ∀ (filters : List Filter) {parts : List Condition},
    catalog.conditions typename parameters filters = .ok parts →
      ∀ test ∈ Filter.testsOf filters,
        ∃ clause, catalog.testClause typename parameters test = .ok clause
  | [], parts, compiled => by simp [Filter.testsOf]
  | first :: rest, parts, compiled => by
      obtain ⟨head, tail, headed, tailed, rfl⟩ := conditions_cons_eq_ok compiled
      intro test member
      rw [Filter.testsOf] at member
      rcases List.mem_append.mp member with here | later
      · exact testClause_of_condition first headed test here
      · exact testClause_of_conditions rest tailed test later

end

end Catalog

/-- What the text of a condition says if there is any; without one, every
document matches. -/
inductive Reads (truth : Fact → Bool) : Option String → Bool → Prop
  | everything : Reads truth none true
  | text {text : String} {value : Bool}
      (reading : Reading truth .disjunction (Token.ofChars text.toList) value) :
      Reads truth (some text) value

theorem Means.reading_iff {text : String} {meaning : (Fact → Bool) → Bool}
    (means : Means .disjunction text meaning) (truth : Fact → Bool) (value : Bool) :
    Reading truth .disjunction (Token.ofChars text.toList) value ↔ value = meaning truth := by
  obtain ⟨tokens, spells, reading⟩ := means
  rw [spells.ofChars_eq]
  constructor
  · exact fun other => other.value_eq (reading truth)
  · intro same
    rw [same]
    exact reading truth

namespace Catalog

variable {catalog : Catalog} {typename : String} {parameters : Parameters}

theorem reads_filterText {filters : List Filter} {text : Option String}
    (compiled : catalog.filterText typename filters parameters = .ok text)
    (truth : Fact → Bool) (value : Bool) :
    Reads truth text value ↔
      value = Filter.allHold (catalog.testHolds typename parameters truth) filters := by
  rw [filterText] at compiled
  obtain ⟨parts, inner, rfl⟩ := map_eq_ok.mp compiled
  have factors := conditions_mean filters inner
  cases parts with
  | nil =>
      obtain rfl : filters = [] := by simpa [Condition.texts] using factors
      constructor
      · intro read
        cases read with
        | everything => rfl
      · intro same
        rw [same]
        exact .everything
  | cons first rest =>
      have means := (Means.all factors (by simp [Condition.texts])).disjunction_of_conjunction
      have reading := means.reading_iff truth value
      rw [List.all_map] at reading
      rw [Filter.allHold_eq_all]
      constructor
      · intro read
        cases read with
        | text read => exact reading.mp read
      · intro same
        exact .text (reading.mpr same)

/-- Rendered filters keep their meaning: for any truth of comparisons, the text
reads as the conjunction of the filters and as nothing else, and each test in
it asks about its own column and its own parameter. -/
theorem filterText_faithful (catalog : Catalog) (typename : String) (filters : List Filter)
    (text : Option String)
    (compiled : catalog.filterText typename filters (.ofFilters filters) = .ok text) :
    ∃ column parameter : Test → String,
      (∀ test ∈ Filter.testsOf filters,
        catalog.testColumn typename test = .ok (column test) ∧
          (Parameters.ofFilters filters).Binds (parameter test) test.value) ∧
      ∀ truth value, Reads truth text value ↔
        value = Filter.allHold (Test.holdsOf truth column parameter) filters := by
  refine ⟨catalog.columnOf typename,
    fun test => ((Parameters.ofFilters filters).nameOf? test.value).getD "", ?_, ?_⟩
  · intro test member
    obtain ⟨parts, inner, _⟩ := map_eq_ok.mp compiled
    obtain ⟨clause, single⟩ := testClause_of_conditions filters inner test member
    obtain ⟨column, name, resolved, named, _⟩ := testClause_eq_ok single
    refine ⟨by rw [columnOf, resolved], ?_⟩
    simp only [named, Option.getD_some]
    exact Parameters.binds_of_nameOf? named
  · exact fun truth value => reads_filterText compiled truth value

/-- A negated test of a column whose name looks like logic, in a group with an
empty one, beside a negated search of an array. -/
def deceptiveFilters : List Filter :=
  [.any [.test ⟨.column "a\"] OR (b", ⟨.notEqual, true⟩, .string "x"⟩, .all []],
    .test ⟨.key "id", ⟨.noneOf, false⟩, .array [.string "x"]⟩]

def deceptiveText : String :=
  "(NOT STRINGEQUALS(c[\"a\\\"] OR (b\"], @p1, true) OR true) AND NOT ARRAY_CONTAINS(@p2, c.id)"

theorem filterText_faithful_deceptive :
    (ofSchema ⟨[]⟩).filterText "Person" deceptiveFilters (.ofFilters deceptiveFilters) =
        .ok (some deceptiveText) ∧
      ∃ column parameter : Test → String,
        (∀ test ∈ Filter.testsOf deceptiveFilters,
          (ofSchema ⟨[]⟩).testColumn "Person" test = .ok (column test) ∧
            (Parameters.ofFilters deceptiveFilters).Binds (parameter test) test.value) ∧
        ∀ truth value, Reads truth (some deceptiveText) value ↔
          value = Filter.allHold (Test.holdsOf truth column parameter) deceptiveFilters := by
  have compiled : (ofSchema ⟨[]⟩).filterText "Person" deceptiveFilters
      (.ofFilters deceptiveFilters) = .ok (some deceptiveText) := by decide
  exact ⟨compiled, filterText_faithful _ _ _ _ compiled⟩

end Catalog

end DocGraph
