import DocGraph.Proofs.Query.FilterInput
import DocGraph.Proofs.Query.Rendering

/-!
# Documents that match

A store evaluates a condition on a document: it looks up columns in the document and
parameters in the statement, and compares what it finds. A filter asks the same of the
column and the value of each of its tests, and a client filter of each of its leaves.
-/

namespace DocGraph

open Json ClientFilter

/-- How a store compares; what is looked up in vain is none. Values that are the same
compare alike, a text equals itself only, and a search finds an item that is equal. -/
structure Comparer where
  holds : Operation → Option Value → Option Value → Bool
  left_same (operation : Operation) {left other : Value} (right : Option Value)
    (same : left.same other = true) :
    holds operation (some left) right = holds operation (some other) right
  right_same (operation : Operation) (left : Option Value) {right other : Value}
    (same : right.same other = true) :
    holds operation left (some right) = holds operation left (some other)
  equals_text (held : Option Value) (text : String) :
    holds (.relation .equal false) held (some (.string text)) = true ↔ held = some (.string text)
  text_equals (text : String) (held : Option Value) :
    holds (.relation .equal false) (some (.string text)) held = true ↔ held = some (.string text)
  finds (searched sought : Option Value) :
    holds (.member false) searched sought = true ↔ ∃ items value item,
      searched = some (.array items) ∧ sought = some value ∧ item ∈ items ∧
      holds (.relation .equal false) (some item) (some value) = true

def Operand.valueIn (document : Value) (statement : Statement) : Operand → Option Value
  | .column name => document.get? name
  | .parameter name => statement.parameter? name

namespace Comparer

variable (comparer : Comparer)

/-- The truth of comparisons in a document and a statement. -/
def truth (document : Value) (statement : Statement) (fact : Fact) : Bool :=
  comparer.holds fact.operation (fact.left.valueIn document statement)
    (fact.right.valueIn document statement)

/-- Whether a comparison holds of what a column holds and an operand. Membership in an
array is asked of the operand. -/
def compares (comparison : Comparison) (held : Option Value) (operand : Value) : Bool :=
  comparison.negates ^^
    if comparison.operator.isPlural && operand.isArray then
      comparer.holds comparison.operation (some operand) held
    else comparer.holds comparison.operation held (some operand)

section Keys

variable {comparer} {held : Option Value} {id : String} {ids : List String}

theorem compares_equal_text :
    comparer.compares ⟨.equal, false⟩ held (.string id) = true ↔ held = some (.string id) := by
  rw [← comparer.equals_text]
  simp [compares, Comparison.negates, Operator.isPlural, Comparison.operation]

theorem compares_oneOf_texts : comparer.compares ⟨.oneOf, false⟩ held (.texts ids) = true ↔
    ∃ id ∈ ids, held = some (.string id) := by
  have searched : comparer.compares ⟨.oneOf, false⟩ held (.texts ids) =
      comparer.holds (.member false) (some (.texts ids)) held := by
    simp [compares, Comparison.negates, Operator.isPlural, Value.texts, Value.isArray,
      Comparison.operation]
  rw [searched, comparer.finds]
  constructor
  · intro found
    obtain ⟨items, value, item, same, rfl, member, equal⟩ := found
    cases same
    obtain ⟨id, listed, rfl⟩ := List.mem_map.mp member
    exact ⟨id, listed, (comparer.text_equals id _).mp equal⟩
  · intro listed
    obtain ⟨id, listed, rfl⟩ := listed
    exact ⟨ids.map .string, .string id, .string id, rfl, rfl, List.mem_map_of_mem listed,
      (comparer.text_equals id _).mpr rfl⟩

theorem compares_oneOf_text : comparer.compares ⟨.oneOf, false⟩ held (.string id) = true ↔
    ∃ items, held = some (.array items) ∧ .string id ∈ items := by
  have searched : comparer.compares ⟨.oneOf, false⟩ held (.string id) =
      comparer.holds (.member false) held (some (.string id)) := by
    simp [compares, Comparison.negates, Operator.isPlural, Value.isArray, Comparison.operation]
  rw [searched, comparer.finds]
  constructor
  · intro found
    obtain ⟨items, value, item, rfl, same, member, equal⟩ := found
    cases same
    have text : item = .string id := Option.some.inj ((comparer.equals_text _ id).mp equal)
    exact ⟨items, rfl, text ▸ member⟩
  · intro listed
    obtain ⟨items, rfl, member⟩ := listed
    exact ⟨items, .string id, .string id, rfl, rfl, member, (comparer.equals_text _ id).mpr rfl⟩

end Keys

def satisfies (catalog : Catalog) (typename : String) (document : Value) (test : Test) : Bool :=
  match catalog.testColumn typename test with
  | .ok column => comparer.compares test.comparison (document.get? column) test.value
  | .error _ => false

def satisfiesLeaf (catalog : Catalog) (typename : String) (document : Value) (leaf : Leaf) :
    Bool :=
  match FilterKey.parse leaf.key with
  | .ok key => comparer.satisfies catalog typename document
      ⟨.key key.field, key.comparison, leaf.value⟩
  | .error _ => false

/-- Equality and membership of representatives; other comparisons hold of nothing. -/
def deepHolds : Operation → Option Value → Option Value → Bool
  | .relation .equal false, some left, some right => left = right
  | .member false, some (.array items), some value => value ∈ items
  | _, _, _ => false

end Comparer

theorem Json.Value.canonicalItems_eq_map (items : List Value) :
    Value.canonicalItems items = items.map Value.canonical := by
  induction items with
  | nil => rfl
  | cons first rest ih => rw [Value.canonicalItems, ih, List.map_cons]

theorem Json.Value.canonical_eq_string {value : Value} {text : String} :
    value.canonical = .string text ↔ value = .string text := by
  cases value <;> simp [Value.canonical]

def Comparer.deep : Comparer where
  holds operation left right :=
    deepHolds operation (left.map Value.canonical) (right.map Value.canonical)
  left_same operation left other right same := by
    have alike : left.canonical = other.canonical := by simpa [Value.same] using same
    rw [Option.map_some, Option.map_some, alike]
  right_same operation left right other same := by
    have alike : right.canonical = other.canonical := by simpa [Value.same] using same
    rw [Option.map_some, Option.map_some, alike]
  equals_text held text := by
    cases held with
    | none => simp [deepHolds]
    | some value => simp [deepHolds, Value.canonical_eq_string, Value.canonical]
  text_equals text held := by
    cases held with
    | none => simp [deepHolds]
    | some value => simp [deepHolds, Value.canonical_eq_string, Value.canonical, eq_comm]
  finds searched sought := by
    cases searched with
    | none => simp [deepHolds]
    | some left =>
        cases sought with
        | none => cases left <;> simp [deepHolds, Value.canonical]
        | some value =>
            cases left with
            | array items =>
                simp [deepHolds, Value.canonical, Value.canonicalItems_eq_map]
            | _ => simp [deepHolds, Value.canonical]

theorem Statement.parameter?_of_binds {statement : Statement} {parameters : Parameters}
    (carries : statement.parameters = parameters.entries) {name : String} {value : Value}
    (binds : parameters.Binds name value) :
    ∃ held, statement.parameter? name = some held ∧ held.same value = true := by
  obtain ⟨entry, member, named, same, only⟩ := binds
  have found : (parameters.entries.find? (·.name == name)).isSome := by
    simpa using ⟨entry, member, named⟩
  obtain ⟨other, there⟩ := Option.isSome_iff_exists.mp found
  have sameName : other.name = name := by simpa using List.find?_some there
  obtain rfl := only other (List.mem_of_find?_eq_some there) sameName
  exact ⟨other.value, by rw [Statement.parameter?, carries, there]; rfl, same⟩

namespace Catalog

variable {catalog : Catalog} {typename : String} {parameters : Parameters}

/-- A store evaluates what a test stands for as the test asks. -/
theorem testHolds_eq_satisfies (comparer : Comparer) (document : Value) {statement : Statement}
    (carries : statement.parameters = parameters.entries) {test : Test} {clause : Clause}
    (compiled : catalog.testClause typename parameters test = .ok clause) :
    catalog.testHolds typename parameters (comparer.truth document statement) test =
      comparer.satisfies catalog typename document test := by
  obtain ⟨column, name, resolved, named, _⟩ := testClause_eq_ok compiled
  obtain ⟨held, bound, same⟩ :=
    Statement.parameter?_of_binds carries (Parameters.binds_of_nameOf? named)
  simp only [testHolds, Test.holdsOf, columnOf, Comparer.satisfies, resolved, named,
    Option.getD_some, Comparer.compares, Test.fact, Test.searchesOperand]
  split
  · simp [Comparer.truth, Operand.valueIn, bound, comparer.left_same _ _ same]
  · simp [Comparer.truth, Operand.valueIn, bound, comparer.right_same _ _ same]

end Catalog

namespace Filter

mutual

theorem holds_eq_holdsWith (truth : Test → Bool) : ∀ filter : Filter,
    filter.holds truth = holdsWith filter (filter.tests.map truth)
  | .test _ => rfl
  | .all children => by rw [holds, holdsWith, tests, allHold_eq_allHoldWith truth children]
  | .any children => by rw [holds, holdsWith, tests, anyHolds_eq_anyHoldsWith truth children]

theorem allHold_eq_allHoldWith (truth : Test → Bool) : ∀ filters : List Filter,
    allHold truth filters = allHoldWith filters ((testsOf filters).map truth)
  | [] => rfl
  | first :: rest => by
      rw [allHold, testsOf, List.map_append, allHoldWith_cons (List.length_map ..),
        holds_eq_holdsWith truth first, allHold_eq_allHoldWith truth rest]

theorem anyHolds_eq_anyHoldsWith (truth : Test → Bool) : ∀ filters : List Filter,
    anyHolds truth filters = anyHoldsWith filters ((testsOf filters).map truth)
  | [] => rfl
  | first :: rest => by
      rw [anyHolds, testsOf, List.map_append, anyHoldsWith_cons (List.length_map ..),
        holds_eq_holdsWith truth first, anyHolds_eq_anyHoldsWith truth rest]

end

theorem allHold_ofInput {input : Value} {filters : List Filter} {truth : Test → Bool}
    {said : Leaf → Bool} (accepted : ofInput input = .ok filters)
    (agree : ∀ leaf test, leaf.Gives test → truth test = said leaf) :
    allHold truth filters = ClientFilter.holds said input := by
  have represented := represented_of_ofInput input accepted
  have gives : List.Forall₂ (fun leaf test => said leaf = truth test) (leaves input)
      (testsOf filters) := represented.gives.imp fun leaf test given => (agree leaf test given).symm
  have truths : (leaves input).map said = (testsOf filters).map truth := by
    rw [← List.forall₂_eq_eq_eq, List.forall₂_map_left_iff, List.forall₂_map_right_iff]
    exact gives
  rw [allHold_eq_allHoldWith, ← truths, represented.means]

theorem allHold_congr {truth other : Test → Bool} {filters : List Filter}
    (alike : ∀ test ∈ testsOf filters, truth test = other test) :
    allHold truth filters = allHold other filters := by
  rw [allHold_eq_allHoldWith, allHold_eq_allHoldWith, List.map_congr_left alike]

end Filter

namespace Comparer

variable {comparer : Comparer} {catalog : Catalog} {typename : String} {document : Value}

theorem satisfiesLeaf_of_gives {leaf : Leaf} {test : Test} (gives : leaf.Gives test) :
    comparer.satisfies catalog typename document test =
      comparer.satisfiesLeaf catalog typename document leaf := by
  obtain ⟨key, nonempty, written, rfl⟩ := gives
  have parsed := FilterKey.parse_eq_ok_iff.mpr ⟨nonempty, written⟩
  rw [satisfiesLeaf, parsed]

end Comparer

/-- The condition that a statement puts on documents, as its text has it. -/
inductive Statement.Restricts (statement : Statement) (condition : String) : Prop
  | select (columns : List String) (order : List (String × Direction))
      (text : statement.text = "SELECT " ++ Column.projection columns ++ " FROM c WHERE " ++
        condition ++ " ORDER BY " ++
        ", ".intercalate (order.map fun (column, direction) =>
          Catalog.orderText column direction)) : Restricts statement condition
  | count (text : statement.text = "SELECT VALUE COUNT(1) FROM c WHERE " ++ condition) :
      Restricts statement condition

namespace Catalog

variable {catalog : Catalog} {typename : String} {filters : List Filter} {statement : Statement}

theorem filterText_eq_some {parameters : Parameters} {first : Filter} {text : Option String}
    (compiled : catalog.filterText typename (first :: filters) parameters = .ok text) :
    ∃ condition, text = some condition := by
  obtain ⟨parts, inner, rfl⟩ := map_eq_ok.mp compiled
  obtain ⟨head, tail, _, _, rfl⟩ := conditions_cons_eq_ok inner
  exact ⟨_, rfl⟩

/-- A statement of filters: a select or a count, with their condition and parameters. -/
inductive Builds (catalog : Catalog) (typename : String) (filters : List Filter)
    (statement : Statement) : Prop
  | select {columns : List String} {keys : List SortKey}
      (built : catalog.select typename columns filters keys = .ok statement) :
      Builds catalog typename filters statement
  | count (built : catalog.count typename filters = .ok statement) :
      Builds catalog typename filters statement

theorem Builds.restricts {first : Filter}
    (builds : catalog.Builds typename (first :: filters) statement) :
    ∃ condition, statement.Restricts condition ∧
      catalog.filterText typename (first :: filters) (.ofFilters (first :: filters)) =
        .ok (some condition) ∧
      statement.parameters = (Parameters.ofFilters (first :: filters)).entries := by
  cases builds with
  | @select columns keys built =>
      rw [Catalog.select] at built
      obtain ⟨_, _, built⟩ := bind_eq_ok.mp built
      obtain ⟨text, compiled, built⟩ := bind_eq_ok.mp built
      obtain ⟨order, sorted, built⟩ := bind_eq_ok.mp built
      obtain ⟨condition, rfl⟩ := filterText_eq_some compiled
      obtain ⟨directed, _, rfl⟩ := map_eq_ok.mp sorted
      obtain rfl := pure_eq_ok.mp built
      refine ⟨condition, .select columns directed ?_, compiled, rfl⟩
      have opening : " FROM c WHERE " = " FROM " ++ (Column.document ++ " WHERE ") := by decide
      simp only [conditionPart, opening, String.append_assoc]
  | count built =>
      rw [Catalog.count] at built
      obtain ⟨_, _, built⟩ := bind_eq_ok.mp built
      obtain ⟨text, compiled, built⟩ := bind_eq_ok.mp built
      obtain ⟨condition, rfl⟩ := filterText_eq_some compiled
      obtain rfl := pure_eq_ok.mp built
      refine ⟨condition, .count ?_, compiled, rfl⟩
      have opening : "SELECT VALUE COUNT(1) FROM c WHERE " =
          "SELECT VALUE COUNT(1) FROM " ++ (Column.document ++ " WHERE ") := by decide
      simp only [conditionPart, opening, String.append_assoc]

/-- The condition of filters reads, of a document, as the filters hold of it. -/
theorem reading_filterText {condition : String}
    (compiled : catalog.filterText typename filters (.ofFilters filters) = .ok (some condition))
    (carries : statement.parameters = (Parameters.ofFilters filters).entries)
    (comparer : Comparer) (document : Value) (value : Bool) :
    Reading (comparer.truth document statement) .disjunction
        (Token.ofChars condition.toList) value ↔
      value = Filter.allHold (comparer.satisfies catalog typename document) filters := by
  obtain ⟨parts, inner, _⟩ := map_eq_ok.mp compiled
  have reads := reads_filterText compiled (comparer.truth document statement) value
  -- The reading is in terms of facts about operands; here they are those of a document.
  have alike : ∀ test ∈ Filter.testsOf filters,
      catalog.testHolds typename (.ofFilters filters)
          (comparer.truth document statement) test =
        comparer.satisfies catalog typename document test := by
    intro test member
    obtain ⟨clause, single⟩ := testClause_of_conditions _ inner test member
    exact testHolds_eq_satisfies comparer document carries single
  rw [Filter.allHold_congr alike] at reads
  rw [← reads]
  constructor
  · exact .text
  · intro read
    cases read with
    | text reading => exact reading

/-- The documents that a statement asks for are those that satisfy its filters. -/
theorem Builds.matches_iff {first : Filter}
    (builds : catalog.Builds typename (first :: filters) statement) :
    ∃ condition, statement.Restricts condition ∧
      ∀ (comparer : Comparer) (document : Value) (value : Bool),
        Reading (comparer.truth document statement) .disjunction
            (Token.ofChars condition.toList) value ↔
          value = Filter.allHold (comparer.satisfies catalog typename document)
            (first :: filters) := by
  obtain ⟨condition, restricts, compiled, carries⟩ := builds.restricts
  exact ⟨condition, restricts, reading_filterText compiled carries⟩

end Catalog

end DocGraph
