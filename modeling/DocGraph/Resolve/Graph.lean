import DocGraph.Resolve.Error
import DocGraph.Resolve.Selection
import DocGraph.Resolve.Strategy
import DocGraph.Schema.Compile
import DocGraph.Settings

namespace DocGraph

/-- How one field of one type is resolved. -/
structure FieldResolver where
  typename : String
  field : Field
  strategy : Strategy
deriving DecidableEq

/-- What becomes of an error before the caller sees it. -/
abbrev ErrorHook := ResolveError → FieldInfo → ResolveError

structure Graph where
  catalog : Catalog
  settings : Settings
  resolvers : Table FieldResolver
  onError : ErrorHook := fun error _ => error

namespace Graph

/-- A resolver for every field of a catalog. -/
def resolversOf (catalog : Catalog) : Table FieldResolver :=
  .ofEntries (catalog.schema.fields.map fun (entity, field) =>
    (joinedName entity.typename field.fieldname,
      ⟨entity.typename, field, Strategy.select catalog entity field⟩))

def ofCatalog (catalog : Catalog) (settings : Settings) : Graph :=
  { catalog, settings, resolvers := resolversOf catalog }

/-- The graph of declarations; the settings name the default database. -/
def compile (settings : Settings) (decls : List TypeDecl) : Except SchemaError Graph := do
  let schema ← Schema.compile settings.schema.defaultDatabase decls
  return ofCatalog (.ofSchema schema) settings

def resolver? (graph : Graph) (typename fieldname : String) : Option FieldResolver :=
  graph.resolvers.lookup? (joinedName typename fieldname)

end Graph

end DocGraph
