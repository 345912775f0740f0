import DocGraph.Query.Error
import DocGraph.Json.Value

/-!
# Conditions

The conditions of the store's query language: comparisons of two operands,
negated or not, under parenthesised conjunctions and disjunctions. An empty
conjunction is `true` and an empty disjunction is `false`.
-/

namespace DocGraph

open Json

inductive Symbol where
  | equal
  | notEqual
  | less
  | lessOrEqual
  | greater
  | greaterOrEqual
deriving DecidableEq, Repr

def Symbol.text : Symbol → String
  | equal => "="
  | notEqual => "!="
  | less => "<"
  | lessOrEqual => "<="
  | greater => ">"
  | greaterOrEqual => ">="

/-- A comparison that the store evaluates by itself. -/
inductive Atom where
  | relation (symbol : Symbol) (left right : String)
  /-- A relation between the lower-case forms of two texts. -/
  | lowerRelation (symbol : Symbol) (left right : String)
  /-- Two texts are equal up to case. -/
  | sameText (left right : String)
  /-- The left text contains the right one. -/
  | contains (ignoreCase : Bool) (left right : String)
  /-- An array has an element; texts may be compared up to case. -/
  | member (ignoreCase : Bool) (array element : String)
  /-- A column is there, or is not, as the right side says. -/
  | defined (left right : String)
deriving DecidableEq

namespace Atom

def text : Atom → String
  | relation symbol left right => left ++ " " ++ symbol.text ++ " " ++ right
  | lowerRelation symbol left right =>
    "LOWER(" ++ left ++ ") " ++ symbol.text ++ " LOWER(" ++ right ++ ")"
  | sameText left right => "STRINGEQUALS(" ++ left ++ ", " ++ right ++ ", true)"
  | contains false left right => "CONTAINS(" ++ left ++ ", " ++ right ++ ")"
  | contains true left right => "CONTAINS(" ++ left ++ ", " ++ right ++ ", true)"
  | member false array element => "ARRAY_CONTAINS(" ++ array ++ ", " ++ element ++ ")"
  | member true array element =>
    "EXISTS(SELECT VALUE v FROM v IN " ++ array ++ " WHERE STRINGEQUALS(v, " ++ element
      ++ ", true))"
  | defined left right => "IS_DEFINED(" ++ left ++ ") = " ++ right

end Atom

/-- An atom or its negation. -/
structure Clause where
  negated : Bool
  atom : Atom
deriving DecidableEq

namespace Clause

def text (clause : Clause) : String :=
  if clause.negated then "NOT " ++ clause.atom.text else clause.atom.text

/-- The membership test of a column and an operand: an array operand is what is
searched, any other operand is searched for in the column. -/
def membership (ignoreCase : Bool) (column operand : String) (value : Value) : Atom :=
  if value.isArray then .member ignoreCase operand column
  else .member ignoreCase column operand

/-- The clause that applies a comparison to a column and an operand. Of the
operand's value only its kind matters. -/
def ofComparison (comparison : Comparison) (column operand : String) (value : Value) :
    Except QueryError Clause :=
  let ordered (symbol : Symbol) : Clause :=
    if comparison.ignoreCase then ⟨false, .lowerRelation symbol column operand⟩
    else ⟨false, .relation symbol column operand⟩
  match comparison.operator with
  | .equal =>
    if comparison.ignoreCase then .ok ⟨false, .sameText column operand⟩
    else .ok ⟨false, .relation .equal column operand⟩
  | .notEqual =>
    if comparison.ignoreCase then .ok ⟨true, .sameText column operand⟩
    else .ok ⟨false, .relation .notEqual column operand⟩
  | .less => .ok (ordered .less)
  | .lessOrEqual => .ok (ordered .lessOrEqual)
  | .greater => .ok (ordered .greater)
  | .greaterOrEqual => .ok (ordered .greaterOrEqual)
  | .oneOf => .ok ⟨false, membership comparison.ignoreCase column operand value⟩
  | .noneOf => .ok ⟨true, membership comparison.ignoreCase column operand value⟩
  | .contains => .ok ⟨false, .contains comparison.ignoreCase column operand⟩
  | .excludes => .ok ⟨true, .contains comparison.ignoreCase column operand⟩
  | .defined =>
    if value.isBoolean then .ok ⟨false, .defined column operand⟩
    else .error (.operandNotBoolean comparison)

end Clause

inductive Condition where
  | clause (clause : Clause)
  | all (parts : List Condition)
  | any (parts : List Condition)

namespace Condition

/-- A parenthesised group, or the value of an empty one. -/
def group (joiner empty : String) (parts : List String) : String :=
  if parts.isEmpty then empty else "(" ++ joiner.intercalate parts ++ ")"

mutual

def text : Condition → String
  | .clause single => single.text
  | .all parts => group " AND " "true" (texts parts)
  | .any parts => group " OR " "false" (texts parts)

def texts : List Condition → List String
  | [] => []
  | first :: rest => text first :: texts rest

end

/-- The text of a conjunction at the top of a query, if it has any part. -/
def topLevel? (parts : List Condition) : Option String :=
  if parts.isEmpty then none else some (" AND ".intercalate (texts parts))

end Condition

end DocGraph
