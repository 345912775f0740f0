import DocGraph.Query.Column
import DocGraph.Query.Condition
import DocGraph.Query.Parameters
import DocGraph.Query.Sort
import DocGraph.Schema.Catalog

namespace DocGraph

open Json

structure Statement where
  text : String
  parameters : List Parameter
deriving DecidableEq

namespace Statement

/-- The value of the first parameter with a name. -/
def parameter? (statement : Statement) (name : String) : Option Value :=
  (statement.parameters.find? (·.name == name)).map (·.value)

def parametersValue (statement : Statement) : Value :=
  .array (statement.parameters.map Parameter.toValue)

def toValue (statement : Statement) : Value := .object [
  ("queryText", .string statement.text),
  ("parameters", statement.parametersValue)]

end Statement

namespace Catalog

variable (catalog : Catalog) (typename : String)

/-- The column that a test compares. A client key has to name a filter field
that allows the operator; the identifying column needs no field. -/
def testColumn (test : Test) : Except QueryError String :=
  match test.target with
  | .column column => .ok column
  | .key key =>
    match catalog.filterField? typename key with
    | some field =>
      if field.allows test.comparison.operator then .ok field.filterColumn
      else .error (.operatorNotAllowed typename field.fieldname test.comparison)
    | none =>
      if key = Column.id then .ok Column.id else .error (.unknownFilterField typename key)

/-- The clause of a test: its column, then its parameter, then its operator. -/
def testClause (parameters : Parameters) (test : Test) : Except QueryError Clause := do
  let column ← catalog.testColumn typename test
  match parameters.nameOf? test.value with
  | some name => Clause.ofComparison test.comparison (Column.reference column) name test.value
  | none => .error (.invalidFilter (.notIndexed test.target.name))

mutual

def condition (parameters : Parameters) : Filter → Except QueryError Condition
  | .test test => (catalog.testClause typename parameters test).map .clause
  | .all children => (conditions parameters children).map .all
  | .any children => (conditions parameters children).map .any

def conditions (parameters : Parameters) : List Filter → Except QueryError (List Condition)
  | [] => .ok []
  | first :: rest => do
    let head ← condition parameters first
    let tail ← conditions parameters rest
    return head :: tail

end

/-- The text of a conjunction of filters, if there are any. -/
def filterText (filters : List Filter) (parameters : Parameters) :
    Except QueryError (Option String) :=
  (catalog.conditions typename parameters filters).map Condition.topLevel?

def sortColumn (key : SortKey) : Except QueryError String :=
  match catalog.sortField? typename key.field with
  | some field => .ok field.sortColumn
  | none =>
    if key.field = Column.id then .ok Column.id
    else .error (.unknownSortField typename key.field)

def orderText (column : String) : Direction → String
  | .ascending => Column.reference column
  | .descending => Column.reference column ++ " DESC"

/-- The columns of a sort with their directions. The identifying column comes
last unless it is there already, so that no two documents are tied. -/
def sortOrder (keys : List SortKey) : Except QueryError (List (String × Direction)) := do
  let order ← keys.mapM fun key =>
    (catalog.sortColumn typename key).map fun column => (column, key.direction)
  return if order.any (·.1 == Column.id) then order else order ++ [(Column.id, .ascending)]

def sortText (keys : List SortKey) : Except QueryError String :=
  (catalog.sortOrder typename keys).map fun order =>
    ", ".intercalate (order.map fun (column, direction) => orderText column direction)

def conditionPart : Option String → String
  | some condition => " WHERE " ++ condition
  | none => ""

/-- Selects the projected columns of the matching documents in order. -/
def select (columns : List String) (filters : List Filter) (keys : List SortKey) :
    Except QueryError Statement := do
  let _ ← (catalog.requireEntity typename).mapError QueryError.schema
  let parameters := Parameters.ofFilters filters
  let condition ← catalog.filterText typename filters parameters
  let order ← catalog.sortText typename keys
  return {
    text := "SELECT " ++ Column.projection columns ++ " FROM " ++ Column.document
      ++ conditionPart condition ++ " ORDER BY " ++ order
    parameters := parameters.entries }

/-- Counts the matching documents. -/
def count (filters : List Filter) : Except QueryError Statement := do
  let _ ← (catalog.requireEntity typename).mapError QueryError.schema
  let parameters := Parameters.ofFilters filters
  let condition ← catalog.filterText typename filters parameters
  return {
    text := "SELECT VALUE COUNT(1) FROM " ++ Column.document ++ conditionPart condition
    parameters := parameters.entries }

end Catalog

/-- The two queries that a paged read of one client input takes. -/
structure Explanation where
  select : Statement
  count : Statement
deriving DecidableEq

namespace Explanation

def toValue (explanation : Explanation) : Value := .object [
  ("select", explanation.select.toValue),
  ("count", explanation.count.toValue)]

end Explanation

/-- Compiles client input for a type without running anything. -/
def Catalog.explain (catalog : Catalog) (typename : String) (columns : List String)
    (filter sort : Value) : Except QueryError Explanation := do
  let filters ← Filter.ofInput filter
  let keys ← SortKey.ofInput sort
  let select ← catalog.select typename columns filters keys
  let count ← catalog.count typename filters
  return ⟨select, count⟩

end DocGraph
