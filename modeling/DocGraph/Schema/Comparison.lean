namespace DocGraph

inductive Operator where
  | less
  | lessOrEqual
  | greater
  | greaterOrEqual
  | equal
  | notEqual
  | oneOf
  | noneOf
  | contains
  | excludes
  | defined
deriving DecidableEq, Repr

namespace Operator

/-- All operators in declaration order. -/
def all : List Operator :=
  [less, lessOrEqual, greater, greaterOrEqual, equal, notEqual, oneOf, noneOf, contains,
    excludes, defined]

def name : Operator → String
  | less => "lt"
  | lessOrEqual => "lte"
  | greater => "gt"
  | greaterOrEqual => "gte"
  | equal => "eq"
  | notEqual => "neq"
  | oneOf => "in"
  | noneOf => "nin"
  | contains => "contains"
  | excludes => "ncontains"
  | defined => "defined"

def ofName? (name : String) : Option Operator := all.find? (·.name == name)

/-- Whether the operator takes an array operand. -/
def isPlural : Operator → Bool
  | oneOf | noneOf => true
  | _ => false

/-- The place of the operator in declaration order. -/
def rank (operator : Operator) : Nat := all.idxOf operator

theorem mem_all (operator : Operator) : operator ∈ all := by cases operator <;> decide

theorem ofName?_name (operator : Operator) : ofName? operator.name = some operator := by
  cases operator <;> decide

theorem name_of_ofName? {name : String} {operator : Operator}
    (found : ofName? name = some operator) : operator.name = name := by
  simpa using List.find?_some found

end Operator

structure Comparison where
  operator : Operator
  ignoreCase : Bool
deriving DecidableEq, Repr

namespace Comparison

/-- What a name carries behind its operator when case is ignored. -/
def lowerMark : String := "_lower"

def name (comparison : Comparison) : String :=
  if comparison.ignoreCase then comparison.operator.name ++ lowerMark
  else comparison.operator.name

end Comparison

end DocGraph
