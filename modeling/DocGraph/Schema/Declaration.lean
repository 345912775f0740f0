import DocGraph.Markup
import DocGraph.Schema.Placement

namespace DocGraph

open Json

structure FieldDecl where
  fieldname : String
  returnTypename : String
  returnMany : Bool
  placement : Placement
  /-- The column of the parent that holds keys of the returned type. -/
  ours : Option String
  /-- The column of the returned type that holds the key of the parent. -/
  theirs : Option String
  /-- Names of the allowed operators; without a list the default applies. -/
  filterOps : Option (List String)
  filterAlias : Option String
  sortable : Option Bool
  sortAlias : Option String
  /-- `on` or `off`. -/
  pagination : Option String
deriving DecidableEq

structure TypeDecl where
  typename : String
  placement : Placement
  /-- Declared elsewhere and only referred to here. -/
  isExternal : Bool
  fields : List FieldDecl
deriving DecidableEq

namespace FieldDecl

def named (fieldname returnTypename : String) : FieldDecl where
  fieldname
  returnTypename
  returnMany := false
  placement := .unknown
  ours := none
  theirs := none
  filterOps := none
  filterAlias := none
  sortable := none
  sortAlias := none
  pagination := none

def many (field : FieldDecl) : FieldDecl := { field with returnMany := true }

def located (database container : String) (field : FieldDecl) : FieldDecl :=
  { field with placement := .full database container }

def inContainer (container : String) (field : FieldDecl) : FieldDecl :=
  { field with placement := { field.placement with container := some container } }

def byOurs (column : String) (field : FieldDecl) : FieldDecl := { field with ours := some column }

def byTheirs (column : String) (field : FieldDecl) : FieldDecl :=
  { field with theirs := some column }

def withFilterOps (names : List String) (field : FieldDecl) : FieldDecl :=
  { field with filterOps := some names }

def withFilterAlias (name : String) (field : FieldDecl) : FieldDecl :=
  { field with filterAlias := some name }

def withSortable (allowed : Bool) (field : FieldDecl) : FieldDecl :=
  { field with sortable := some allowed }

def withSortAlias (name : String) (field : FieldDecl) : FieldDecl :=
  { field with sortAlias := some name }

def withPagination (on : Bool) (field : FieldDecl) : FieldDecl :=
  { field with pagination := some (if on then "on" else "off") }

/-- The names under which a field is written, in the order of a field given as a
list. -/
def partNames : List String :=
  ["fieldname", "returnTypename", "returnMany", "database", "container", "ours", "theirs",
    "filterOps", "filterAlias", "sortable", "sortAlias", "pagination"]

def ofMarkup? (form : Markup.RecordForm) (markup : Markup) : Option FieldDecl := do
  match ← markup.fields? form partNames with
  | [fieldname, returnTypename, returnMany, database, container, ours, theirs, filterOps,
      filterAlias, sortable, sortAlias, pagination] =>
    return {
      fieldname := ← Markup.required fieldname (·.text?)
      returnTypename := ← Markup.required returnTypename (·.text?)
      returnMany := ← Markup.withDefault false returnMany (·.boolean?)
      placement := {
        database := ← Markup.optionalField database (·.text?)
        container := ← Markup.optionalField container (·.text?) }
      ours := ← Markup.optionalField ours (·.text?)
      theirs := ← Markup.optionalField theirs (·.text?)
      filterOps := ← Markup.optionalField filterOps (Markup.list? (·.text?))
      filterAlias := ← Markup.optionalField filterAlias (·.text?)
      sortable := ← Markup.optionalField sortable (·.boolean?)
      sortAlias := ← Markup.optionalField sortAlias (·.text?)
      pagination := ← Markup.optionalField pagination (·.text?) }
  | _ => none

def toValue (field : FieldDecl) : Value := .object [
  ("fieldname", .string field.fieldname),
  ("returnTypename", .string field.returnTypename),
  ("returnMany", .boolean field.returnMany),
  ("database", .optionalText field.placement.database),
  ("container", .optionalText field.placement.container),
  ("ours", .optionalText field.ours),
  ("theirs", .optionalText field.theirs),
  ("filterOps", match field.filterOps with
    | some names => .texts names
    | none => .null),
  ("filterAlias", .optionalText field.filterAlias),
  ("sortable", .optionalBoolean field.sortable),
  ("sortAlias", .optionalText field.sortAlias),
  ("pagination", .optionalText field.pagination)]

end FieldDecl

namespace TypeDecl

def named (typename : String) : TypeDecl := ⟨typename, .unknown, false, []⟩

def located (database container : String) (type : TypeDecl) : TypeDecl :=
  { type with placement := .full database container }

def asExternal (type : TypeDecl) : TypeDecl := { type with isExternal := true }

def withField (field : FieldDecl) (type : TypeDecl) : TypeDecl :=
  { type with fields := type.fields ++ [field] }

def ofMarkup? (form : Markup.RecordForm) (markup : Markup) : Option TypeDecl := do
  match ← markup.fields? form ["typename", "database", "container", "external", "fields"] with
  | [typename, database, container, isExternal, fields] =>
    return {
      typename := ← Markup.required typename (·.text?)
      placement := {
        database := ← Markup.optionalField database (·.text?)
        container := ← Markup.optionalField container (·.text?) }
      isExternal := ← Markup.withDefault false isExternal (·.boolean?)
      fields := ← Markup.withDefault [] fields (Markup.list? (FieldDecl.ofMarkup? form)) }
  | _ => none

def toValue (type : TypeDecl) : Value := .object [
  ("typename", .string type.typename),
  ("database", .optionalText type.placement.database),
  ("container", .optionalText type.placement.container),
  ("external", .boolean type.isExternal),
  ("fields", .array (type.fields.map FieldDecl.toValue))]

/-- A whole file of declarations: a record with one field, the list of types. -/
def listOfMarkup? (form : Markup.RecordForm) (markup : Markup) : Option (List TypeDecl) := do
  match ← markup.fields? form ["types"] with
  | [types] => Markup.withDefault [] types (Markup.list? (ofMarkup? form))
  | _ => none

end TypeDecl

end DocGraph
