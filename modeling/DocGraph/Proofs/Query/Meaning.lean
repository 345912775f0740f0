import DocGraph.Query.Filter
import DocGraph.Proofs.Query.Reading

namespace DocGraph

namespace Filter

variable (truth : Test → Bool)

mutual

def holds : Filter → Bool
  | .test single => truth single
  | .all children => allHold children
  | .any children => anyHolds children

/-- A conjunction of nothing is true. -/
def allHold : List Filter → Bool
  | [] => true
  | first :: rest => holds first && allHold rest

/-- A disjunction of nothing is false. -/
def anyHolds : List Filter → Bool
  | [] => false
  | first :: rest => holds first || anyHolds rest

end

theorem allHold_eq_all (filters : List Filter) :
    allHold truth filters = filters.all (holds truth) := by
  induction filters with
  | nil => rfl
  | cons first rest ih => rw [allHold, ih, List.all_cons]

theorem anyHolds_eq_any (filters : List Filter) :
    anyHolds truth filters = filters.any (holds truth) := by
  induction filters with
  | nil => rfl
  | cons first rest ih => rw [anyHolds, ih, List.any_cons]

end Filter

namespace Comparison

/-- The comparisons that hold where their positive form does not. -/
def negates (comparison : Comparison) : Bool :=
  match comparison.operator with
  | .noneOf | .excludes => true
  | .notEqual => comparison.ignoreCase
  | _ => false

/-- What a comparison, or its positive form, asks of its operands. -/
def operation (comparison : Comparison) : Operation :=
  match comparison.operator with
  | .less => .relation .less comparison.ignoreCase
  | .lessOrEqual => .relation .lessOrEqual comparison.ignoreCase
  | .greater => .relation .greater comparison.ignoreCase
  | .greaterOrEqual => .relation .greaterOrEqual comparison.ignoreCase
  | .equal => if comparison.ignoreCase then .sameText else .relation .equal false
  | .notEqual => if comparison.ignoreCase then .sameText else .relation .notEqual false
  | .oneOf | .noneOf => .member comparison.ignoreCase
  | .contains | .excludes => .contains comparison.ignoreCase
  | .defined => .defined

end Comparison

namespace Test

/-- Membership in a compared array is asked of the array, not of the column. -/
def searchesOperand (test : Test) : Bool :=
  test.comparison.operator.isPlural && test.value.isArray

/-- The comparison of a column with a parameter that a test stands for. -/
def fact (test : Test) (column parameter : String) : Fact :=
  if test.searchesOperand then
    ⟨test.comparison.operation, .parameter parameter, .column column⟩
  else ⟨test.comparison.operation, .column column, .parameter parameter⟩

/-- Whether a test holds, given the truth of comparisons. -/
def holdsOf (truth : Fact → Bool) (column parameter : Test → String) (test : Test) : Bool :=
  test.comparison.negates ^^ truth (test.fact (column test) (parameter test))

end Test

end DocGraph
