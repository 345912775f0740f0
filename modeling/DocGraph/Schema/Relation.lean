import DocGraph.Schema.Error

namespace DocGraph

inductive Relation where
  | manyOurs
  | manyTheirs
  | oneOurs
  | oneTheirs
  | manyRoot
  | embedded
deriving DecidableEq, Repr

namespace Relation

def label : Relation → String
  | manyOurs => "many-ours"
  | manyTheirs => "many-theirs"
  | oneOurs => "one-ours"
  | oneTheirs => "one-theirs"
  | manyRoot => "many-root"
  | embedded => "embedded"

def isMany : Relation → Bool
  | manyOurs | manyTheirs | manyRoot => true
  | _ => false

/-- Whether the parent document itself holds data of the field. -/
def isStoredLocally : Relation → Bool
  | embedded | oneOurs | manyOurs => true
  | _ => false

/-- The relation of a shape. A field has keys on one side at most, and only a
list can have a container without keys. -/
def classify (shape : Shape) : Except SchemaFault Relation :=
  match shape.hasOurs, shape.hasTheirs with
  | true, true => .error .oursAndTheirs
  | true, false => .ok (if shape.isList then manyOurs else oneOurs)
  | false, true => .ok (if shape.isList then manyTheirs else oneTheirs)
  | false, false =>
    if !shape.hasContainer then .ok embedded
    else if shape.isList then .ok manyRoot
    else .error (.illegalRelation shape)

end Relation

end DocGraph
