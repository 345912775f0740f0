import DocGraph.Keyed
import DocGraph.Schema.Catalog

namespace DocGraph

open Json

/-- Selected names in order, each once, with what is selected below them. -/
inductive Selection where
  | of (fields : List (String × Selection))

namespace Selection

def fields : Selection → List (String × Selection)
  | of fields => fields

def empty : Selection := of []

instance : Inhabited Selection := ⟨empty⟩

/-- Selects a field and what is wanted below it, in place of any earlier choice. -/
def nested (selection : Selection) (name : String) (below : Selection) : Selection :=
  of (Keyed.insert name below selection.fields)

def field (selection : Selection) (name : String) : Selection := selection.nested name empty

def child? (selection : Selection) (name : String) : Option Selection :=
  Keyed.find? name selection.fields

def contains (selection : Selection) (name : String) : Bool := (selection.child? name).isSome

def names (selection : Selection) : List String := Keyed.keys selection.fields

def isEmpty (selection : Selection) : Bool := selection.fields.isEmpty

mutual

def toValue : Selection → Value
  | of fields => .object (memberValues fields)

def memberValues : List (String × Selection) → List (String × Value)
  | [] => []
  | (name, below) :: rest => (name, toValue below) :: memberValues rest

end

end Selection

/-- The column of a record from which a field is answered; a field that is
answered from elsewhere needs none. -/
def Field.neededColumn? (field : Field) : Option String :=
  match field.relation with
  | .embedded => some field.fieldname
  | .oneOurs | .manyOurs => field.ours
  | .oneTheirs | .manyTheirs | .manyRoot => none

/-- The columns that answer a selection on the records of a type. Without a
selection no column is needed. -/
def Catalog.selectedColumns (catalog : Catalog) (typename : String)
    (selection : Option Selection) : List String :=
  match selection with
  | none => []
  | some selection => selection.names.filterMap fun name =>
    (catalog.field? typename name).bind Field.neededColumn?

/-- Where a field is being resolved, and what is wanted below it. -/
structure FieldInfo where
  parentType : String
  fieldname : String
  selection : Selection

end DocGraph
