import DocGraph.Proofs.Query.Rendering

namespace DocGraph

open Json

namespace Catalog

variable (catalog : Catalog) (typename : String)

/-- What may be compared by an operator: any stored column, a client key with a filter field
that allows the operator, and the identifying column where no filter field has it. -/
inductive Admits (operator : Operator) : Target → Prop
  | column (name : String) : Admits operator (.column name)
  | field {key : String} {field : Field} (known : catalog.filterField? typename key = some field)
      (allowed : field.allows operator = true) : Admits operator (.key key)
  | identifier (unlisted : catalog.filterField? typename Column.id = none) :
      Admits operator (.key Column.id)

structure Permits (test : Test) : Prop where
  target : catalog.Admits typename test.comparison.operator test.target
  operand : test.comparison.operator = .defined → test.value.isBoolean = true

/-- The error of a test that is not permitted. Its operand matters only where its target is
in order. -/
inductive Refuses (test : Test) : QueryError → Prop
  | unknownField {key : String} (target : test.target = .key key)
      (unknown : catalog.filterField? typename key = none) (other : key ≠ Column.id) :
      Refuses test (.unknownFilterField typename key)
  | operatorNotAllowed {key : String} {field : Field} (target : test.target = .key key)
      (known : catalog.filterField? typename key = some field)
      (disallowed : field.allows test.comparison.operator = false) :
      Refuses test (.operatorNotAllowed typename field.fieldname test.comparison)
  | operandNotBoolean (target : catalog.Admits typename test.comparison.operator test.target)
      (defined : test.comparison.operator = .defined) (other : test.value.isBoolean = false) :
      Refuses test (.operandNotBoolean test.comparison)

def Orders (key : SortKey) : Prop :=
  (∃ field, catalog.sortField? typename key.field = some field) ∨ key.field = Column.id

structure Accepts (filters : List Filter) (keys : List SortKey) : Prop where
  known : ∃ entity, catalog.entity? typename = some entity
  tests : ∀ test ∈ Filter.testsOf filters, catalog.Permits typename test
  keys : ∀ key ∈ keys, catalog.Orders typename key

/-- The error that a statement fails with: that of what is wrong first. -/
inductive Rejects (filters : List Filter) (keys : List SortKey) : QueryError → Prop
  | type (unknown : catalog.entity? typename = none) :
      Rejects filters keys (.schema (.ofFault (.missingType typename)))
  | test {before after : List Test} {test : Test} {error : QueryError}
      (known : ∃ entity, catalog.entity? typename = some entity)
      (place : Filter.testsOf filters = before ++ test :: after)
      (earlier : ∀ other ∈ before, catalog.Permits typename other)
      (refused : catalog.Refuses typename test error) : Rejects filters keys error
  | key {before after : List SortKey} {key : SortKey}
      (known : ∃ entity, catalog.entity? typename = some entity)
      (tests : ∀ test ∈ Filter.testsOf filters, catalog.Permits typename test)
      (place : keys = before ++ key :: after)
      (earlier : ∀ other ∈ before, catalog.Orders typename other)
      (unordered : ¬ catalog.Orders typename key) :
      Rejects filters keys (.unknownSortField typename key.field)

end Catalog

/-- Only the operand of a definedness test can be wrong. -/
theorem Clause.fault?_ofComparison (comparison : Comparison) (column operand : String)
    (value : Value) :
    fault? (ofComparison comparison column operand value) =
      if comparison.operator = .defined ∧ value.isBoolean = false then
        some (.operandNotBoolean comparison)
      else none := by
  obtain ⟨operator, ignoreCase⟩ := comparison
  cases operator with
  | defined => cases boolean : value.isBoolean <;> simp [ofComparison, boolean]
  | _ => cases ignoreCase <;> simp [ofComparison]

namespace Catalog

variable {catalog : Catalog} {typename : String} {parameters : Parameters}

theorem testColumn_eq_ok_iff {test : Test} :
    (∃ column, catalog.testColumn typename test = .ok column) ↔
      catalog.Admits typename test.comparison.operator test.target := by
  obtain ⟨target, comparison, value⟩ := test
  constructor
  · intro resolved
    obtain ⟨column, resolved⟩ := resolved
    cases target with
    | column name => exact .column name
    | key key =>
        simp only [testColumn] at resolved
        split at resolved
        · next field known =>
            split at resolved
            · next allowed => exact .field known allowed
            · contradiction
        · next unlisted =>
            split at resolved
            · next same =>
                subst same
                exact .identifier unlisted
            · contradiction
  · intro admitted
    simp only at admitted
    cases admitted with
    | column name => exact ⟨name, rfl⟩
    | @field _ field known allowed =>
        exact ⟨field.filterColumn, by simp only [testColumn, known, if_pos allowed]⟩
    | identifier unlisted =>
        exact ⟨Column.id, by simp only [testColumn, unlisted, if_true]⟩

theorem refuses_of_testColumn {test : Test} {error : QueryError}
    (failed : catalog.testColumn typename test = .error error) :
    catalog.Refuses typename test error := by
  obtain ⟨target, comparison, value⟩ := test
  cases target with
  | column name => contradiction
  | key key =>
      simp only [testColumn] at failed
      split at failed
      · next field known =>
          split at failed
          · contradiction
          · next disallowed =>
              cases failed
              exact .operatorNotAllowed rfl known (by simpa using disallowed)
      · next unknown =>
          split at failed
          · contradiction
          · next other =>
              cases failed
              exact .unknownField rfl unknown other

theorem testClause_of_named {test : Test} {column name : String}
    (resolved : catalog.testColumn typename test = .ok column)
    (named : parameters.nameOf? test.value = some name) :
    catalog.testClause typename parameters test =
      Clause.ofComparison test.comparison (Column.reference column) name test.value := by
  rw [testClause, resolved, named]
  rfl

section

variable {test : Test} {name : String} (named : parameters.nameOf? test.value = some name)

include named

theorem permits_iff :
    fault? (catalog.testClause typename parameters test) = none ↔
      catalog.Permits typename test := by
  constructor
  · intro compiled
    obtain ⟨clause, compiled⟩ := fault?_eq_none.mp compiled
    obtain ⟨column, _, resolved, _, accepted⟩ := testClause_eq_ok compiled
    refine ⟨testColumn_eq_ok_iff.mp ⟨column, resolved⟩, fun defined => ?_⟩
    have sound := fault?_eq_none.mpr ⟨clause, accepted⟩
    simpa [Clause.fault?_ofComparison, defined] using sound
  · intro permitted
    obtain ⟨column, resolved⟩ := testColumn_eq_ok_iff.mpr permitted.target
    rw [testClause_of_named resolved named, Clause.fault?_ofComparison, if_neg]
    intro wrong
    simp [permitted.operand wrong.1] at wrong

theorem refuses_iff {error : QueryError} :
    fault? (catalog.testClause typename parameters test) = some error ↔
      catalog.Refuses typename test error := by
  constructor
  · intro failed
    cases resolved : catalog.testColumn typename test with
    | error fault =>
        rw [testClause, resolved] at failed
        cases failed
        exact refuses_of_testColumn resolved
    | ok column =>
        rw [testClause_of_named resolved named, Clause.fault?_ofComparison] at failed
        split at failed
        · next wrong =>
            cases failed
            exact .operandNotBoolean (testColumn_eq_ok_iff.mp ⟨column, resolved⟩) wrong.1 wrong.2
        · contradiction
  · intro refused
    cases refused with
    | unknownField target unknown other =>
        simp [testClause, testColumn, target, unknown, other, bind, Except.bind]
    | operatorNotAllowed target known disallowed =>
        simp [testClause, testColumn, target, known, disallowed, bind, Except.bind]
    | operandNotBoolean target defined other =>
        obtain ⟨column, resolved⟩ := testColumn_eq_ok_iff.mpr target
        rw [testClause_of_named resolved named, Clause.fault?_ofComparison,
          if_pos ⟨defined, other⟩]

end

mutual

/-- A filter fails with the first of its tests that fails. -/
theorem fault?_condition : ∀ filter : Filter,
    fault? (catalog.condition typename parameters filter) =
      filter.tests.findSome? fun test => fault? (catalog.testClause typename parameters test)
  | .test single => by
      rw [condition, Filter.tests, fault?_map, List.findSome?_singleton]
  | .all children => by
      rw [condition, Filter.tests, fault?_map, fault?_conditions children]
  | .any children => by
      rw [condition, Filter.tests, fault?_map, fault?_conditions children]

theorem fault?_conditions : ∀ filters : List Filter,
    fault? (catalog.conditions typename parameters filters) =
      (Filter.testsOf filters).findSome? fun test =>
        fault? (catalog.testClause typename parameters test)
  | [] => rfl
  | first :: rest => by
      have later : ∀ head, fault? (catalog.conditions typename parameters rest >>= fun tail =>
          pure (head :: tail)) = (Filter.testsOf rest).findSome? fun test =>
            fault? (catalog.testClause typename parameters test) := by
        intro head
        have kept : ∀ tail, fault? (pure (head :: tail) : Except QueryError (List Condition)) =
            none := fun _ => rfl
        rw [fault?_bind kept, fault?_conditions rest, Option.or_none]
      rw [conditions, fault?_bind later, fault?_condition first, Filter.testsOf,
        List.findSome?_append]

end

theorem fault?_sortText (keys : List SortKey) :
    fault? (catalog.sortText typename keys) =
      keys.findSome? fun key => fault? (catalog.sortColumn typename key) := by
  have kept : ∀ order : List (String × Direction), fault? (pure
      (if order.any (·.1 == Column.id) then order else order ++ [(Column.id, .ascending)]) :
        Except QueryError (List (String × Direction))) = none := fun _ => rfl
  rw [sortText, fault?_map, sortOrder, fault?_bind kept, Option.or_none, fault?_mapM]
  simp only [fault?_map]

theorem requires_iff : fault? ((catalog.requireEntity typename).mapError QueryError.schema) = none ↔
    ∃ entity, catalog.entity? typename = some entity := by
  unfold requireEntity
  split
  · next entity known => exact ⟨fun _ => ⟨entity, known⟩, fun _ => rfl⟩
  · next unknown => simp [unknown, Except.mapError]

theorem missing_iff {error : QueryError} :
    fault? ((catalog.requireEntity typename).mapError QueryError.schema) = some error ↔
      catalog.entity? typename = none ∧ error = .schema (.ofFault (.missingType typename)) := by
  unfold requireEntity
  split
  · next entity known => simp [known, Except.mapError]
  · next unknown => simp [unknown, Except.mapError, eq_comm]

theorem orders_iff {key : SortKey} :
    fault? (catalog.sortColumn typename key) = none ↔ catalog.Orders typename key := by
  unfold sortColumn Orders
  split
  · next field known => simp [known]
  · next unknown =>
      split
      · next same => simp [same]
      · next other => simp [unknown, other]

theorem unordered_iff {key : SortKey} {error : QueryError} :
    fault? (catalog.sortColumn typename key) = some error ↔
      ¬ catalog.Orders typename key ∧ error = .unknownSortField typename key.field := by
  unfold sortColumn Orders
  split
  · next field known => simp [known]
  · next unknown =>
      split
      · next same => simp [same]
      · next other => simp [unknown, other, eq_comm]

/-- What fails first in a statement. -/
def firstFault? (catalog : Catalog) (typename : String) (filters : List Filter)
    (keys : List SortKey) : Option QueryError :=
  (fault? ((catalog.requireEntity typename).mapError QueryError.schema)).or
    (((Filter.testsOf filters).findSome? fun test =>
      fault? (catalog.testClause typename (.ofFilters filters) test)).or
        (keys.findSome? fun key => fault? (catalog.sortColumn typename key)))

variable {filters : List Filter} {keys : List SortKey}

theorem nameOf?_ofFilters {test : Test} (member : test ∈ Filter.testsOf filters) :
    ∃ name, (Parameters.ofFilters filters).nameOf? test.value = some name :=
  Option.isSome_iff_exists.mp
    ((Parameters.numbers_ofFilters filters).named _ (List.mem_map_of_mem member))

theorem fault?_filterText : fault? (catalog.filterText typename filters parameters) =
    (Filter.testsOf filters).findSome? fun test =>
      fault? (catalog.testClause typename parameters test) := by
  rw [filterText, fault?_map, fault?_conditions]

theorem fault?_select (columns : List String) :
    fault? (catalog.select typename columns filters keys) =
      catalog.firstFault? typename filters keys := by
  rw [firstFault?, ← fault?_sortText, ← fault?_filterText]
  refine fault?_bind fun _ => fault?_bind fun condition => ?_
  rw [← Option.or_none (o := fault? (catalog.sortText typename keys))]
  exact fault?_bind fun order => rfl

theorem fault?_count : fault? (catalog.count typename filters) =
    catalog.firstFault? typename filters [] := by
  rw [firstFault?, ← fault?_filterText]
  exact fault?_bind fun _ => fault?_bind fun condition => rfl

theorem accepts_iff : catalog.firstFault? typename filters keys = none ↔
    catalog.Accepts typename filters keys := by
  simp only [firstFault?, Option.or_eq_none_iff, requires_iff, List.findSome?_eq_none_iff,
    orders_iff]
  constructor
  · intro sound
    obtain ⟨known, tests, keys⟩ := sound
    refine ⟨known, fun test member => ?_, keys⟩
    obtain ⟨name, named⟩ := nameOf?_ofFilters member
    exact (permits_iff named).mp (tests test member)
  · intro accepted
    refine ⟨accepted.known, fun test member => ?_, accepted.keys⟩
    obtain ⟨name, named⟩ := nameOf?_ofFilters member
    exact (permits_iff named).mpr (accepted.tests test member)

theorem rejects_iff {error : QueryError} :
    catalog.firstFault? typename filters keys = some error ↔
      catalog.Rejects typename filters keys error := by
  have permitted : ∀ {tests : List Test}, tests ⊆ Filter.testsOf filters →
      ((∀ test ∈ tests, fault? (catalog.testClause typename (.ofFilters filters) test) = none) ↔
        ∀ test ∈ tests, catalog.Permits typename test) := by
    intro tests inside
    refine forall₂_congr fun test member => ?_
    obtain ⟨name, named⟩ := nameOf?_ofFilters (inside member)
    exact permits_iff named
  simp only [firstFault?, Option.or_eq_some_iff, requires_iff, missing_iff,
    List.findSome?_eq_none_iff, List.findSome?_eq_some_iff, orders_iff, unordered_iff]
  constructor
  · rintro (⟨unknown, rfl⟩ | ⟨known, ⟨before, test, after, place, failed, earlier⟩ |
      ⟨tests, before, key, after, place, ⟨unordered, rfl⟩, earlier⟩⟩)
    · exact .type unknown
    · have inside : test ∈ Filter.testsOf filters := by simp [place]
      obtain ⟨name, named⟩ := nameOf?_ofFilters inside
      have front : before ⊆ Filter.testsOf filters := place ▸ List.subset_append_left ..
      exact .test known place ((permitted front).mp earlier) ((refuses_iff named).mp failed)
    · exact .key known ((permitted (List.Subset.refl _)).mp tests) place earlier unordered
  · intro rejected
    cases rejected with
    | type unknown => exact .inl ⟨unknown, rfl⟩
    | @test before after test _ known place earlier refused =>
        have inside : test ∈ Filter.testsOf filters := by simp [place]
        obtain ⟨name, named⟩ := nameOf?_ofFilters inside
        have front : before ⊆ Filter.testsOf filters := place ▸ List.subset_append_left ..
        exact .inr ⟨known, .inl ⟨before, test, after, place, (refuses_iff named).mpr refused,
          (permitted front).mpr earlier⟩⟩
    | @key before after key known tests place earlier unordered =>
        exact .inr ⟨known, .inr ⟨(permitted (List.Subset.refl _)).mpr tests, before, key, after,
          place, ⟨unordered, rfl⟩, earlier⟩⟩

/-- A select compiles exactly if the catalog accepts its filters and sort keys, and fails with
the error of what is wrong first; a count does as a select without sort keys. -/
theorem statement_outcome (catalog : Catalog) (typename : String) (filters : List Filter) :
    (∀ columns keys,
      ((∃ statement, catalog.select typename columns filters keys = .ok statement) ↔
        catalog.Accepts typename filters keys) ∧
      ∀ error, catalog.select typename columns filters keys = .error error ↔
        catalog.Rejects typename filters keys error) ∧
    ((∃ statement, catalog.count typename filters = .ok statement) ↔
      catalog.Accepts typename filters []) ∧
    ∀ error, catalog.count typename filters = .error error ↔
      catalog.Rejects typename filters [] error := by
  refine ⟨fun columns keys => ⟨?_, fun error => ?_⟩, ?_, fun error => ?_⟩
  · rw [← fault?_eq_none, fault?_select, accepts_iff]
  · rw [← fault?_eq_some, fault?_select, rejects_iff]
  · rw [← fault?_eq_none, fault?_count, accepts_iff]
  · rw [← fault?_eq_some, fault?_count, rejects_iff]

end Catalog

end DocGraph
