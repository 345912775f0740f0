import DocGraph.Json.Value
import DocGraph.Query.Error
import DocGraph.Text.Split

/-!
# Filters

A filter is a tree of tests under conjunctions and disjunctions; a list of
filters stands for their conjunction. Client input is an object whose keys are
`<field>_<operator>` or one of the combinators `and` and `or`, which hold arrays
of such objects. Members are read in the order of the object.
-/

namespace DocGraph

open Json

/-- What the left side of a test names. -/
inductive Target where
  /-- A client key, which the catalog resolves. -/
  | key (name : String)
  /-- A stored column, taken as it is. -/
  | column (name : String)
deriving DecidableEq

def Target.name : Target → String
  | key name => name
  | column name => name

structure Test where
  target : Target
  comparison : Comparison
  value : Value
deriving DecidableEq

namespace Test

def toValue (test : Test) : Value := .object [
  match test.target with
  | .key name => ("key", .string name)
  | .column name => ("column", .string name),
  ("op", .string test.comparison.operator.name),
  ("lower", .boolean test.comparison.ignoreCase),
  ("value", test.value)]

end Test

inductive Filter where
  | test (test : Test)
  | all (children : List Filter)
  | any (children : List Filter)

/-- A client key taken apart. -/
structure FilterKey where
  field : String
  comparison : Comparison
deriving DecidableEq

namespace FilterKey

def write (key : FilterKey) : String := key.field ++ "_" ++ key.comparison.name

/-- Takes a key apart: one lower mark at the end, then the operator behind the
last underscore, then a field that is not empty. -/
def parse (key : String) : Except QueryError FilterKey :=
  let (rest, ignoreCase) := match Text.beforeEnd? Comparison.lowerMark.toList key.toList with
    | some rest => (rest, true)
    | none => (key.toList, false)
  match Text.splitAtLast? '_' rest with
  | none => .error (.malformedKey key)
  | some (field, operator) =>
    if field.isEmpty then .error (.malformedKey key)
    else
      match Operator.ofName? (String.ofList operator) with
      | some operator => .ok ⟨String.ofList field, ⟨operator, ignoreCase⟩⟩
      | none => .error (.unknownOperator key (String.ofList operator))

end FilterKey

namespace Filter

/-- A test of a client key. -/
def onKey (key : String) (comparison : Comparison) (value : Value) : Filter :=
  test ⟨.key key, comparison, value⟩

/-- A case-sensitive test of a stored column. -/
def onColumn (column : String) (operator : Operator) (value : Value) : Filter :=
  test ⟨.column column, ⟨operator, false⟩, value⟩

mutual

def toValue : Filter → Value
  | .test single => single.toValue
  | .all children => .object [("and", .array (toValues children))]
  | .any children => .object [("or", .array (toValues children))]

def toValues : List Filter → List Value
  | [] => []
  | first :: rest => toValue first :: toValues rest

end

mutual

/-- The tests of a filter from left to right. -/
def tests : Filter → List Test
  | .test single => [single]
  | .all children => testsOf children
  | .any children => testsOf children

def testsOf : List Filter → List Test
  | [] => []
  | first :: rest => tests first ++ testsOf rest

end

/-- One alternative of a disjunction: its only filter, or all of them together. -/
def alternative : List Filter → Filter
  | [only] => only
  | filters => all filters

def ofTest (key : String) (value : Value) : Except QueryError Filter :=
  (FilterKey.parse key).map fun parsed => onKey parsed.field parsed.comparison value

mutual

/-- The filters of client input; null means no filter. -/
def ofInput : Value → Except QueryError (List Filter)
  | .null => .ok []
  | .object members => ofMembers members
  | other => .error (.invalidFilter (.notAnObject other.describe))

def ofMembers : List (String × Value) → Except QueryError (List Filter)
  | [] => .ok []
  | (key, value) :: rest => do
    let first ← ofMember key value
    let others ← ofMembers rest
    return first :: others

def ofMember (key : String) : Value → Except QueryError Filter
  | .array items =>
    if key = "and" then (ofItems items).map fun groups => all groups.flatten
    else if key = "or" then (ofItems items).map fun groups => any (groups.map alternative)
    else ofTest key (.array items)
  | value =>
    if key = "and" ∨ key = "or" then
      .error (.invalidFilter (.notAnArray key value.describe))
    else ofTest key value

/-- The items under a combinator, each as the list of its filters. -/
def ofItems : List Value → Except QueryError (List (List Filter))
  | [] => .ok []
  | item :: rest => do
    let first ← ofInput item
    let others ← ofItems rest
    return first :: others

end

end Filter

end DocGraph
