import DocGraph.Schema.Basic
import DocGraph.Schema.Declaration

/-!
# Compiling declarations

Types and fields are put in the order of their names, relations are classified,
locations are inherited in both directions between fields and the types that
they return, and fields without a pagination setting get one. A failure names
the type and the field where it happened.
-/

namespace DocGraph

open SchemaError

/-- The first name that stands next to its equal. -/
def firstRepeated? : List String → Option String
  | first :: second :: rest =>
    if first = second then some first else firstRepeated? (second :: rest)
  | _ => none

namespace FieldDecl

def shape (decl : FieldDecl) : Shape where
  hasOurs := decl.ours.isSome
  hasTheirs := decl.theirs.isSome
  isList := decl.returnMany
  hasContainer := decl.placement.container.isSome

/-- The operators with the given names, in declaration order and each once. -/
def operators (names : List String) : Except SchemaFault (List Operator) := do
  let named ← names.mapM fun name =>
    match Operator.ofName? name with
    | some operator => Except.ok operator
    | none => .error (.unknownOperator name)
  return Operator.all.filter fun operator => named.contains operator

/-- The meaning of a pagination setting; upper and lower case are the same. -/
def paginationSetting (setting : String) : Except SchemaFault Bool :=
  let lower := setting.map Char.toLower
  if lower = "on" ∨ lower = "true" then .ok true
  else if lower = "off" ∨ lower = "false" then .ok false
  else .error (.invalidPagination setting)

/-- The field of a declaration, as far as the declaration alone decides it. -/
def compile (decl : FieldDecl) : Except SchemaFault Field := do
  let relation ← Relation.classify decl.shape
  let filterOps ← decl.filterOps.mapM operators
  let pagination ← decl.pagination.mapM paginationSetting
  return {
    fieldname := decl.fieldname
    returnTypename := decl.returnTypename
    returnMany := decl.returnMany
    placement := decl.placement
    ours := decl.ours
    theirs := decl.theirs
    filterOps
    filterAlias := decl.filterAlias
    sortable := decl.sortable
    sortAlias := decl.sortAlias
    pagination
    relation }

end FieldDecl

namespace TypeDecl

def compileFields (fields : List FieldDecl) : Except SchemaError (List Field) :=
  fields.mapM fun field =>
    field.compile.mapError fun fault => inField field.fieldname (ofFault fault)

/-- The type of a declaration, as far as the declaration alone decides it. -/
def compile (decl : TypeDecl) : Except SchemaError Entity :=
  let fields := decl.fields.mergeSort fun left right => left.fieldname ≤ right.fieldname
  match firstRepeated? (fields.map (·.fieldname)) with
  | some name => .error (ofFault (.duplicateField name))
  | none => (compileFields fields).map fun fields =>
    ⟨decl.typename, decl.placement, decl.isExternal, fields⟩

end TypeDecl

namespace Schema

def compileTypes (types : List TypeDecl) : Except SchemaError (List Entity) :=
  types.mapM fun type => type.compile.mapError (inType type.typename)

/-- Types and fields in order, each compiled by itself. -/
def ofDecls (decls : List TypeDecl) : Except SchemaError Schema :=
  let types := decls.mergeSort fun left right => left.typename ≤ right.typename
  match firstRepeated? (types.map (·.typename)) with
  | some name => .error (ofFault (.duplicateType name))
  | none => (compileTypes types).map Schema.mk

/-- Every relation has to return a declared type. -/
def checkReturnTypes (schema : Schema) : Except SchemaError Unit :=
  match schema.fields.find? fun (_, field) =>
      field.relation ≠ .embedded && (schema.entity? field.returnTypename).isNone with
  | some (entity, field) =>
    .error (inType entity.typename (inField field.fieldname
      (ofFault (.unknownReturnType field.returnTypename))))
  | none => .ok ()

/-- The placements that fields with a container declare for the types that they
return. All fields that return one type have to agree. -/
def declaredPlacements (schema : Schema) : Except SchemaError (List (String × Placement)) :=
  schema.fields.foldlM (fun declared (entity, field) =>
    if field.placement.container.isNone then .ok declared
    else
      match Keyed.find? field.returnTypename declared with
      | none => .ok (Keyed.insert field.returnTypename field.placement declared)
      | some first =>
        if first = field.placement then .ok declared
        else .error (inType entity.typename (inField field.fieldname (ofFault
          (.conflictingLocation field.returnTypename first.describe field.placement.describe)))))
    []

/-- A type without a container takes the placement declared for it; then a
container without a database is put in the default one. -/
def placeEntities (declared : List (String × Placement)) (defaultDatabase : Option String)
    (schema : Schema) : Schema :=
  ⟨schema.entities.map fun entity =>
    let placement :=
      if entity.placement.container.isSome then entity.placement
      else entity.placement.orElse ((Keyed.find? entity.typename declared).getD .unknown)
    { entity with placement := placement.withDefaultDatabase defaultDatabase }⟩

/-- Changes every field and keeps the types. -/
def mapFields (change : Field → Field) (schema : Schema) : Schema :=
  ⟨schema.entities.map fun entity => { entity with fields := entity.fields.map change }⟩

/-- A relation takes each missing part of its placement from the type that it
returns. -/
def placeFields (schema : Schema) : Schema :=
  schema.mapFields fun field =>
    if field.relation = .embedded then field
    else
      match schema.entity? field.returnTypename with
      | some entity => { field with placement := field.placement.orElse entity.placement }
      | none => field

/-- Without a setting, a list in a container is paginated unless its keys are
kept by the parent. -/
def settlePagination (schema : Schema) : Schema :=
  schema.mapFields fun field =>
    { field with pagination := some (field.pagination.getD
        (field.returnMany && field.placement.container.isSome && field.ours.isNone)) }

/-- The place that stands first in the trail of every compilation error. -/
def compilation : String := "Error while generating meta schema"

/-- The schema of declarations, with errors that do not yet say what was done. -/
def build (defaultDatabase : Option String) (decls : List TypeDecl) :
    Except SchemaError Schema := do
  let schema ← ofDecls decls
  checkReturnTypes schema
  let declared ← schema.declaredPlacements
  return ((schema.placeEntities declared defaultDatabase).placeFields).settlePagination

/-- Compiles declarations into a schema. -/
def compile (defaultDatabase : Option String) (decls : List TypeDecl) :
    Except SchemaError Schema :=
  (build defaultDatabase decls).mapError (within compilation)

end Schema

end DocGraph
