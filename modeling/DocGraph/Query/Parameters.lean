import DocGraph.Json.Value
import DocGraph.Query.Filter

namespace DocGraph

open Json

structure Parameter where
  name : String
  value : Value
deriving DecidableEq

namespace Parameter

def toValue (parameter : Parameter) : Value := .object [
  ("name", .string parameter.name),
  ("value", parameter.value)]

end Parameter

structure Parameters where
  values : List Value
deriving DecidableEq

namespace Parameters

def empty : Parameters := ⟨[]⟩

/-- The name of the parameter in a place, counted from zero. -/
def nameAt (place : Nat) : String := "@p" ++ Nat.repr (place + 1)

def size (parameters : Parameters) : Nat := parameters.values.length

/-- The place of a value, if it has a parameter. -/
def place? (parameters : Parameters) (value : Value) : Option Nat :=
  parameters.values.findIdx? (·.same value)

def nameOf? (parameters : Parameters) (value : Value) : Option String :=
  (parameters.place? value).map nameAt

/-- The name of a value and the parameters that include it. -/
def slot (parameters : Parameters) (value : Value) : String × Parameters :=
  match parameters.place? value with
  | some place => (nameAt place, parameters)
  | none => (nameAt parameters.size, ⟨parameters.values ++ [value]⟩)

/-- Gives a value a parameter unless it has one. -/
def add (parameters : Parameters) (value : Value) : Parameters := (parameters.slot value).2

/-- One parameter for each distinct value that the filters compare with. -/
def ofFilters (filters : List Filter) : Parameters :=
  ((Filter.testsOf filters).map (·.value)).foldl add empty

def entries (parameters : Parameters) : List Parameter :=
  parameters.values.zipIdx.map fun (value, place) => ⟨nameAt place, value⟩

end Parameters

end DocGraph
