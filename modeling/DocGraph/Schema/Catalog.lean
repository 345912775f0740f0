import DocGraph.NameSet
import DocGraph.Schema.Basic

/-!
# Catalogs

Lookup tables over a schema. All tables of fields are keyed by the joined name
`type.name`; where two fields have one joined name, the later field in schema
order shadows the earlier. A table is a list with its latest entry first.
-/

namespace DocGraph

/-- The joined name under which a field of a type is looked up. -/
def joinedName (typename name : String) : String := typename ++ "." ++ name

/-- A lookup table with its latest entry first. -/
abbrev Table (α : Type) := List (String × α)

namespace Table

/-- The table to which the entries were added in order. -/
def ofEntries {α : Type} (entries : List (String × α)) : Table α := entries.reverse

/-- The latest entry under a name. -/
def lookup? {α : Type} (table : Table α) (name : String) : Option α := Keyed.find? name table

end Table

structure Catalog where
  schema : Schema
  entityTable : Table Entity
  fieldTable : Table Field
  filterTable : Table Field
  sortTable : Table Field
  oursTable : Table Field
  theirsTable : Table Field
  /-- Types with a field that clients may filter on. -/
  filterableTypes : NameSet
  /-- Types with a field that clients may sort by. -/
  sortableTypes : NameSet
  /-- Types that some field returns in pages. -/
  pageableTypes : NameSet

namespace Catalog

/-- The fields of a schema that have a name of some sort, under that name. -/
def namedFields (name? : Field → Option String) (schema : Schema) : Table Field :=
  .ofEntries (schema.fields.filterMap fun (entity, field) =>
    (name? field).map fun name => (joinedName entity.typename name, field))

def filterName? (field : Field) : Option String :=
  if field.isFilterable then some field.filterColumn else none

def sortName? (field : Field) : Option String :=
  if field.isSortable then some field.sortColumn else none

def ofSchema (schema : Schema) : Catalog where
  schema
  entityTable := .ofEntries (schema.entities.map fun entity => (entity.typename, entity))
  fieldTable := namedFields (fun field => some field.fieldname) schema
  filterTable := namedFields filterName? schema
  sortTable := namedFields sortName? schema
  oursTable := namedFields (·.ours) schema
  theirsTable := namedFields (·.theirs) schema
  filterableTypes := .ofList ((schema.fields.filter (·.2.isFilterable)).map (·.1.typename))
  sortableTypes := .ofList ((schema.fields.filter (·.2.isSortable)).map (·.1.typename))
  pageableTypes := .ofList ((schema.fields.filter (·.2.isPaginated)).map (·.2.returnTypename))

variable (catalog : Catalog)

def entity? (typename : String) : Option Entity := catalog.entityTable.lookup? typename

def field? (typename fieldname : String) : Option Field :=
  catalog.fieldTable.lookup? (joinedName typename fieldname)

def filterField? (typename key : String) : Option Field :=
  catalog.filterTable.lookup? (joinedName typename key)

def sortField? (typename key : String) : Option Field :=
  catalog.sortTable.lookup? (joinedName typename key)

/-- The field whose keys the parent keeps in a column. -/
def oursField? (typename column : String) : Option Field :=
  catalog.oursTable.lookup? (joinedName typename column)

/-- The field whose keys the returned type keeps in a column. -/
def theirsField? (typename column : String) : Option Field :=
  catalog.theirsTable.lookup? (joinedName typename column)

def requireEntity (typename : String) : Except SchemaError Entity :=
  match catalog.entity? typename with
  | some entity => .ok entity
  | none => .error (.ofFault (.missingType typename))

/-- A field that was looked up, or the error that names what was looked for. -/
def orMissing (typename name : String) : Option Field → Except SchemaError Field
  | some field => .ok field
  | none => .error (.ofFault (.missingField (joinedName typename name)))

def requireField (typename fieldname : String) : Except SchemaError Field :=
  orMissing typename fieldname (catalog.field? typename fieldname)

def requireFilterField (typename key : String) : Except SchemaError Field :=
  orMissing typename key (catalog.filterField? typename key)

def requireSortField (typename key : String) : Except SchemaError Field :=
  orMissing typename key (catalog.sortField? typename key)

end Catalog

end DocGraph
