import DocGraph.Schema.Catalog

namespace DocGraph

inductive Strategy where
  /-- Query the container of the field. -/
  | root
  /-- Follow the keys that the parent keeps. -/
  | ours
  /-- Find the records that keep the key of the parent. -/
  | theirs
  /-- Take a value out of the parent, which may hold records. -/
  | embedded
  /-- Take a scalar column of a stored parent. -/
  | column
deriving DecidableEq, Repr

namespace Strategy

def label : Strategy → String
  | root => "root"
  | ours => "ours"
  | theirs => "theirs"
  | embedded => "embedded"
  | column => "column"

/-- The strategy for a field of a type. -/
def select (catalog : Catalog) (parent : Entity) (field : Field) : Strategy :=
  match field.relation with
  | .manyRoot => root
  | .manyOurs | .oneOurs => ours
  | .manyTheirs | .oneTheirs => theirs
  | .embedded =>
    if parent.isQueryable && (catalog.entity? field.returnTypename).isNone then column
    else embedded

end Strategy

end DocGraph
