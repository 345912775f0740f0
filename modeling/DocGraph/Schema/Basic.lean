import DocGraph.Json.Value
import DocGraph.Schema.Comparison
import DocGraph.Schema.Placement
import DocGraph.Schema.Relation

namespace DocGraph

open Json

structure Field where
  fieldname : String
  returnTypename : String
  returnMany : Bool
  placement : Placement
  ours : Option String
  theirs : Option String
  /-- The allowed operators in declaration order, each once. -/
  filterOps : Option (List Operator)
  filterAlias : Option String
  sortable : Option Bool
  sortAlias : Option String
  /-- Every field of a compiled schema has a setting. -/
  pagination : Option Bool
  relation : Relation
deriving DecidableEq

namespace Field

/-- The column that a client filter on this field compares. -/
def filterColumn (field : Field) : String :=
  (field.filterAlias.or field.ours).getD field.fieldname

/-- The column that a client sort on this field orders by. -/
def sortColumn (field : Field) : String :=
  (field.sortAlias.or field.ours).getD field.fieldname

def isStoredLocally (field : Field) : Bool := field.relation.isStoredLocally

def isFilterable (field : Field) : Bool :=
  match field.filterOps with
  | some operators => !operators.isEmpty
  | none => field.isStoredLocally

def allows (field : Field) (operator : Operator) : Bool :=
  match field.filterOps with
  | some operators => operators.contains operator
  | none => field.isStoredLocally

def isSortable (field : Field) : Bool := field.sortable.getD field.isStoredLocally

def isPaginated (field : Field) : Bool := field.pagination.getD false

def toValue (field : Field) : Value := .object [
  ("fieldname", .string field.fieldname),
  ("returnTypename", .string field.returnTypename),
  ("returnMany", .boolean field.returnMany),
  ("database", .optionalText field.placement.database),
  ("container", .optionalText field.placement.container),
  ("ours", .optionalText field.ours),
  ("theirs", .optionalText field.theirs),
  ("filterOps", match field.filterOps with
    | some operators => .texts (operators.map Operator.name)
    | none => .null),
  ("filterAlias", .optionalText field.filterAlias),
  ("sortable", .optionalBoolean field.sortable),
  ("sortAlias", .optionalText field.sortAlias),
  ("pagination", .optionalBoolean field.pagination),
  ("kind", .string field.relation.label)]

end Field

structure Entity where
  typename : String
  placement : Placement
  isExternal : Bool
  fields : List Field
deriving DecidableEq

namespace Entity

/-- Documents of a type can be queried when its location is known. -/
def isQueryable (entity : Entity) : Bool := entity.placement.location?.isSome

def field? (entity : Entity) (fieldname : String) : Option Field :=
  entity.fields.find? (·.fieldname == fieldname)

def toValue (entity : Entity) : Value := .object [
  ("typename", .string entity.typename),
  ("database", .optionalText entity.placement.database),
  ("container", .optionalText entity.placement.container),
  ("external", .boolean entity.isExternal),
  ("fields", .array (entity.fields.map Field.toValue))]

end Entity

structure Schema where
  entities : List Entity
deriving DecidableEq

namespace Schema

def entity? (schema : Schema) (typename : String) : Option Entity :=
  schema.entities.find? (·.typename == typename)

/-- Every field with its type, in schema order. -/
def fields (schema : Schema) : List (Entity × Field) :=
  schema.entities.flatMap fun entity => entity.fields.map fun field => (entity, field)

def toValue (schema : Schema) : Value := .object [
  ("types", .array (schema.entities.map Entity.toValue))]

end Schema

end DocGraph
