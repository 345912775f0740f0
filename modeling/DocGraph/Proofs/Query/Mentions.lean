import DocGraph.Proofs.Query.Acceptance
import DocGraph.Proofs.Query.Selecting

namespace DocGraph

open Json
open Token (Spells Leads Closes)

namespace Token

def parameter? : Token → Option String
  | parameter name => some name
  | _ => none

/-- The parameters that a text names, from left to right. -/
def named (text : String) : List String := (ofChars text.toList).filterMap parameter?

/-- Fixed text that ends whatever comes before it, has ended before whatever follows it, and
names no parameter. -/
def Separates (text : String) : Prop :=
  Closes text (ofChars text.toList) ∧ Leads text (ofChars text.toList) ∧ named text = []

instance (text : String) : Decidable (Separates text) := inferInstanceAs (Decidable (_ ∧ _ ∧ _))

end Token

/-- A text that names these parameters, wherever it is followed by a delimiter. -/
def Names (text : String) (names : List String) : Prop :=
  ∃ tokens, Spells text tokens ∧ tokens.filterMap Token.parameter? = names

namespace Names

variable {text back fixed : String} {names others : List String} {middle : List Token}

theorem named_eq (found : Names text names) : Token.named text = names := by
  obtain ⟨tokens, spells, rfl⟩ := found
  rw [Token.named, spells.ofChars_eq]

theorem of_unquoted (unquoted : '[' ∉ text.toList) : Names text (Token.named text) :=
  ⟨_, Spells.of_unquoted unquoted, rfl⟩

theorem lead (leads : Leads fixed middle) (silent : middle.filterMap Token.parameter? = [])
    (found : Names text names) : Names (fixed ++ text) names := by
  obtain ⟨tokens, spells, rfl⟩ := found
  exact ⟨_, Spells.lead leads spells, by rw [List.filterMap_append, silent, List.nil_append]⟩

theorem close (found : Names text names) (closes : Closes fixed middle)
    (silent : middle.filterMap Token.parameter? = []) : Names (text ++ fixed) names := by
  obtain ⟨tokens, spells, rfl⟩ := found
  exact ⟨_, spells.close closes, by rw [List.filterMap_append, silent, List.append_nil]⟩

theorem between (found : Names text names) (separates : Token.Separates fixed)
    (next : Names back others) : Names (text ++ fixed ++ back) (names ++ others) := by
  obtain ⟨tokens, spells, rfl⟩ := found
  obtain ⟨tokens', spells', rfl⟩ := next
  obtain ⟨closes, leads, silent⟩ := separates
  refine ⟨_, spells.between closes leads spells', ?_⟩
  rw [Token.named] at silent
  rw [List.filterMap_append, List.filterMap_append, silent, List.append_nil]

theorem intercalate {texts : List String} {lists : List (List String)}
    (separates : Token.Separates fixed) (parts : List.Forall₂ Names texts lists)
    (nonempty : texts ≠ []) : Names (fixed.intercalate texts) lists.flatten := by
  induction parts with
  | nil => contradiction
  | @cons text names texts lists first others ih =>
      cases others with
      | nil => simpa using first
      | cons second rest =>
          have joined := first.between separates (ih (by simp))
          rwa [← String.intercalate_cons_of_ne_nil (by simp), ← List.flatten_cons] at joined

theorem group {joiner empty : String} {texts : List String} {lists : List (List String)}
    (separates : Token.Separates joiner) (unquoted : '[' ∉ empty.toList)
    (silent : Token.named empty = []) (parts : List.Forall₂ Names texts lists) :
    Names (Condition.group joiner empty texts) lists.flatten := by
  cases parts with
  | nil =>
      have constant := of_unquoted unquoted
      rwa [silent] at constant
  | cons first others =>
      have inner := intercalate separates (.cons first others) (by simp)
      have opened : Leads "(" [.opening] := by decide
      have closed : Closes ")" [.closing] := by decide
      exact (inner.lead opened rfl).close closed rfl

theorem reference (name : String) : Names (Column.reference name) [] :=
  ⟨_, Spells.reference name, rfl⟩

theorem orderText (column : String) (direction : Direction) :
    Names (Catalog.orderText column direction) [] := by
  cases direction with
  | ascending => exact reference column
  | descending =>
      have descends : Closes " DESC" [.word "DESC"] := by decide
      exact (reference column).close descends rfl

theorem listed {texts : List String} (each : ∀ text ∈ texts, Names text [])
    (nonempty : texts ≠ []) : Names (", ".intercalate texts) [] := by
  have parts : List.Forall₂ Names texts (texts.map fun _ => []) :=
    List.forall₂_map_right_iff.mpr (List.forall₂_same.mpr each)
  have joined := intercalate (by decide : Token.Separates ", ") parts nonempty
  rwa [List.flatten_eq_nil_iff.mpr (by simp)] at joined

end Names

theorem Operation.parameters_tokens (operation : Operation) (left right : Token) :
    (operation.tokens left right).filterMap Token.parameter? =
      [left, right].filterMap Token.parameter? := by
  rcases operation with ⟨symbol, _ | _⟩ | _ | ⟨_ | _⟩ | ⟨_ | _⟩ | _ <;>
    simp [tokens, Token.parameter?, List.filterMap_cons]

theorem Clause.names {clause : Clause} {first second : String} {left right : Token}
    (operands : clause.atom.operands = (first, second)) (spells : Spells first [left])
    (spells' : Spells second [right]) :
    Names clause.text ([left, right].filterMap Token.parameter?) := by
  have atom : Names clause.atom.text ([left, right].filterMap Token.parameter?) := by
    have both : Spells clause.atom.text (clause.atom.operation.tokens left right) := by
      refine clause.atom.spells ?_ ?_
      · rwa [operands]
      · rwa [operands]
    exact ⟨_, both, Operation.parameters_tokens ..⟩
  have negation : Leads "NOT " [.notWord] := by decide
  rw [text]
  split
  · exact atom.lead negation rfl
  · exact atom

namespace Catalog

variable {catalog : Catalog} {typename : String} {parameters : Parameters}

theorem testClause_names {test : Test} {clause : Clause} {name : String}
    (compiled : catalog.testClause typename parameters test = .ok clause)
    (named : parameters.nameOf? test.value = some name) : Names clause.text [name] := by
  obtain ⟨column, found, _, given, accepted⟩ := testClause_eq_ok compiled
  obtain rfl : found = name := Option.some.inj (given.symm.trans named)
  obtain ⟨_, _, operands⟩ := Clause.ofComparison_spec accepted
  obtain ⟨place, _, rfl⟩ := Option.map_eq_some_iff.mp given
  split at operands
  · exact Clause.names operands (.parameter place) (.reference column)
  · exact Clause.names operands (.reference column) (.parameter place)

mutual

theorem condition_names : ∀ (filter : Filter) {condition : Condition},
    catalog.condition typename parameters filter = .ok condition →
      Names condition.text (filter.tests.filterMap fun test => parameters.nameOf? test.value)
  | .test test, condition, compiled => by
      rw [Catalog.condition] at compiled
      obtain ⟨clause, single, rfl⟩ := map_eq_ok.mp compiled
      obtain ⟨_, name, _, named, _⟩ := testClause_eq_ok single
      have only : [test].filterMap (fun test => parameters.nameOf? test.value) = [name] := by
        simp [named]
      rw [Filter.tests, only]
      exact testClause_names single named
  | .all children, condition, compiled => by
      rw [Catalog.condition] at compiled
      obtain ⟨parts, inner, rfl⟩ := map_eq_ok.mp compiled
      obtain ⟨lists, each, whole⟩ := conditions_name children inner
      rw [Filter.tests, ← whole]
      exact Names.group (by decide) (by decide) (by decide) each
  | .any children, condition, compiled => by
      rw [Catalog.condition] at compiled
      obtain ⟨parts, inner, rfl⟩ := map_eq_ok.mp compiled
      obtain ⟨lists, each, whole⟩ := conditions_name children inner
      rw [Filter.tests, ← whole]
      exact Names.group (by decide) (by decide) (by decide) each

theorem conditions_name : ∀ (filters : List Filter) {parts : List Condition},
    catalog.conditions typename parameters filters = .ok parts →
      ∃ lists, List.Forall₂ Names (Condition.texts parts) lists ∧
        lists.flatten =
          (Filter.testsOf filters).filterMap fun test => parameters.nameOf? test.value
  | [], parts, compiled => by
      obtain rfl : [] = parts := by simpa [conditions] using compiled
      exact ⟨[], .nil, rfl⟩
  | first :: rest, parts, compiled => by
      obtain ⟨head, tail, headed, tailed, rfl⟩ := conditions_cons_eq_ok compiled
      obtain ⟨lists, each, whole⟩ := conditions_name rest tailed
      refine ⟨_ :: lists, .cons (condition_names first headed) each, ?_⟩
      rw [List.flatten_cons, whole, Filter.testsOf, List.filterMap_append]

end

variable {filters : List Filter}

theorem conditionPart_names {condition : Option String} {front : String}
    (compiled : catalog.filterText typename filters parameters = .ok condition)
    (opening : Names front []) :
    Names (front ++ conditionPart condition)
      ((Filter.testsOf filters).filterMap fun test => parameters.nameOf? test.value) := by
  obtain ⟨parts, inner, rfl⟩ := map_eq_ok.mp compiled
  obtain ⟨lists, each, whole⟩ := conditions_name filters inner
  rw [← whole]
  cases parts with
  | nil =>
      cases each
      simpa [Condition.topLevel?, conditionPart] using opening
  | cons first rest =>
      have text := Names.intercalate (by decide : Token.Separates " AND ") each
        (List.cons_ne_nil _ _)
      have joined := opening.between (by decide : Token.Separates " WHERE ") text
      rwa [String.append_assoc] at joined

theorem sortOrder_ne_nil {keys : List SortKey} {order : List (String × Direction)}
    (sorted : catalog.sortOrder typename keys = .ok order) : order ≠ [] := by
  obtain ⟨given, _, sorted⟩ := bind_eq_ok.mp sorted
  obtain rfl := pure_eq_ok.mp sorted
  split
  · next identified =>
      rintro rfl
      contradiction
  · simp

theorem sortText_names {keys : List SortKey} {order : String}
    (sorted : catalog.sortText typename keys = .ok order) : Names order [] := by
  obtain ⟨directed, ordered, rfl⟩ := map_eq_ok.mp sorted
  refine Names.listed (fun text member => ?_) ?_
  · obtain ⟨⟨column, direction⟩, _, rfl⟩ := List.mem_map.mp member
    exact Names.orderText column direction
  · simpa using sortOrder_ne_nil ordered

theorem projection_names (columns : List String) : Names (Column.projection columns) [] := by
  refine Names.listed (fun text member => ?_) ?_
  · obtain ⟨column, _, rfl⟩ := List.mem_map.mp member
    exact Names.reference column
  · simpa using Column.projected_ne_nil columns

theorem Builds.compiles {statement : Statement}
    (builds : catalog.Builds typename filters statement) :
    statement.parameters = (Parameters.ofFilters filters).entries ∧
      ∃ condition, catalog.filterText typename filters (.ofFilters filters) = .ok condition ∧
        Names statement.text ((Filter.testsOf filters).filterMap fun test =>
          (Parameters.ofFilters filters).nameOf? test.value) := by
  have document : Names Column.document [] := Names.of_unquoted (by decide)
  cases builds with
  | @select columns keys built =>
      obtain ⟨_, _, built⟩ := bind_eq_ok.mp built
      obtain ⟨condition, compiled, built⟩ := bind_eq_ok.mp built
      obtain ⟨order, sorted, built⟩ := bind_eq_ok.mp built
      obtain rfl := pure_eq_ok.mp built
      have opened : Leads "SELECT " [.word "SELECT"] := by decide
      have front := ((projection_names columns).lead opened rfl).between
        (by decide : Token.Separates " FROM ") document
      have whole := (conditionPart_names compiled front).between
        (by decide : Token.Separates " ORDER BY ") (sortText_names sorted)
      rw [List.append_nil] at whole
      exact ⟨rfl, condition, compiled, whole⟩
  | count built =>
      obtain ⟨_, _, built⟩ := bind_eq_ok.mp built
      obtain ⟨condition, compiled, built⟩ := bind_eq_ok.mp built
      obtain rfl := pure_eq_ok.mp built
      have opened : Leads "SELECT VALUE COUNT(1) FROM "
          (Token.ofChars "SELECT VALUE COUNT(1) FROM ".toList) := by decide
      have front := document.lead opened (by decide)
      exact ⟨rfl, condition, compiled, conditionPart_names compiled front⟩

end Catalog

/-- A statement carries the parameters of its filters. Its text names, from left to right, the
parameter of each test; without repetitions these are the names of the list, in its order. -/
structure Statement.Uses (catalog : Catalog) (typename : String) (filters : List Filter)
    (statement : Statement) : Prop where
  parameters : statement.parameters = (Parameters.ofFilters filters).entries
  each : List.Forall₂ (fun test name => ∃ clause,
      catalog.testClause typename (.ofFilters filters) test = .ok clause ∧
        Token.named clause.text = [name] ∧ (Parameters.ofFilters filters).Binds name test.value)
    (Filter.testsOf filters) (Token.named statement.text)
  order : (Token.named statement.text).eraseDups = statement.parameters.map (·.name)

theorem forall₂_filterMap {α β : Type} {related : α → β → Prop} {step : α → Option β}
    {list : List α}
    (each : ∀ item ∈ list, ∃ result, step item = some result ∧ related item result) :
    List.Forall₂ related list (list.filterMap step) := by
  induction list with
  | nil => exact .nil
  | cons first rest ih =>
      obtain ⟨result, found, holds⟩ := each first List.mem_cons_self
      rw [List.filterMap_cons_some found]
      exact .cons holds (ih fun item member => each item (.tail _ member))

namespace Catalog

variable {catalog : Catalog} {typename : String} {filters : List Filter}

theorem Builds.uses {statement : Statement}
    (builds : catalog.Builds typename filters statement) :
    statement.Uses catalog typename filters := by
  obtain ⟨carries, condition, compiled, names⟩ := builds.compiles
  obtain ⟨parts, inner, _⟩ := map_eq_ok.mp compiled
  refine ⟨carries, ?_, ?_⟩
  · rw [names.named_eq]
    refine forall₂_filterMap fun test member => ?_
    obtain ⟨clause, single⟩ := testClause_of_conditions filters inner test member
    obtain ⟨_, name, _, named, _⟩ := testClause_eq_ok single
    exact ⟨name, named, clause, single, (testClause_names single named).named_eq,
      Parameters.binds_of_nameOf? named⟩
  · have inOrder := (Parameters.numbers_ofFilters filters).inOrder
    rw [List.filterMap_map] at inOrder
    rw [names.named_eq, carries, ← inOrder]
    rfl

theorem filterText_ne_notIndexed (name : String) :
    catalog.filterText typename filters (.ofFilters filters) ≠
      .error (.invalidFilter (.notIndexed name)) := by
  intro failed
  have fault := fault?_eq_some.mpr failed
  rw [fault?_filterText] at fault
  obtain ⟨before, test, after, place, failed, _⟩ := List.findSome?_eq_some_iff.mp fault
  have member : test ∈ Filter.testsOf filters := by simp [place]
  obtain ⟨_, named⟩ := nameOf?_ofFilters member
  cases (refuses_iff named).mp failed

end Catalog

/-- The parameters of filters cover their tests, so that no test is without one, and every
statement of the filters uses them all, in their order. -/
theorem Parameters.ofFilters_used (filters : List Filter) :
    (ofFilters filters).Covers (Filter.testsOf filters) ∧
      ∀ (catalog : Catalog) (typename : String),
        (∀ name, catalog.filterText typename filters (.ofFilters filters) ≠
          .error (.invalidFilter (.notIndexed name))) ∧
        ∀ statement, catalog.Builds typename filters statement →
          statement.Uses catalog typename filters :=
  ⟨covers_ofFilters filters, fun _ _ =>
    ⟨Catalog.filterText_ne_notIndexed, fun _ builds => builds.uses⟩⟩

namespace Zeros

/-- Tests of an integer, of the two zeros of a double, which share a parameter, and of the
integer again. -/
def filters : List Filter :=
  [.any [.test ⟨.column "@p9", ⟨.equal, false⟩, .ofInt 0⟩,
      .all [.test ⟨.column "a", ⟨.less, true⟩, .number (.double Double.zero)⟩]],
    .test ⟨.key "id", ⟨.noneOf, false⟩, .array [.ofInt 0]⟩,
    .any [.test ⟨.column "a", ⟨.notEqual, false⟩, .number (.double Double.zero.neg)⟩,
      .test ⟨.column "b", ⟨.equal, false⟩, .ofInt 0⟩]]

def catalog : Catalog := .ofSchema ⟨[⟨"Number", ⟨none, none⟩, false, []⟩]⟩

def statement : Statement where
  text := "SELECT VALUE COUNT(1) FROM c WHERE (c[\"@p9\"] = @p1 OR (LOWER(c.a) < LOWER(@p2)))" ++
    " AND NOT ARRAY_CONTAINS(@p3, c.id) AND (c.a != @p2 OR c.b = @p1)"
  parameters :=
    [⟨"@p1", .ofInt 0⟩, ⟨"@p2", .number (.double Double.zero)⟩, ⟨"@p3", .array [.ofInt 0]⟩]

theorem ofFilters_used_zeros :
    catalog.count "Number" filters = .ok statement ∧
      statement.Uses catalog "Number" filters := by
  have built : catalog.count "Number" filters = .ok statement := rfl
  exact ⟨built, ((Parameters.ofFilters_used filters).2 catalog "Number").2 _ (.count built)⟩

end Zeros

end DocGraph
