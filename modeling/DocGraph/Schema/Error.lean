namespace DocGraph

/-- The outward form of a field declaration, which decides how it is related to
its parent. -/
structure Shape where
  hasOurs : Bool
  hasTheirs : Bool
  isList : Bool
  hasContainer : Bool
deriving DecidableEq, Repr

inductive SchemaFault where
  | oursAndTheirs
  | illegalRelation (shape : Shape)
  | duplicateType (typename : String)
  | duplicateField (fieldname : String)
  | unknownReturnType (typename : String)
  | conflictingLocation (typename first second : String)
  | invalidPagination (setting : String)
  | unknownOperator (name : String)
  | missingType (typename : String)
  | missingField (path : String)
deriving DecidableEq

namespace SchemaFault

def message : SchemaFault → String
  | oursAndTheirs => "a field cannot declare both `ours` and `theirs`"
  | illegalRelation shape =>
    s!"illegal relationship shape (ours={shape.hasOurs}, theirs={shape.hasTheirs}, list={shape.isList}, container={shape.hasContainer})"
  | duplicateType typename => s!"duplicate type `{typename}`"
  | duplicateField fieldname => s!"duplicate field `{fieldname}`"
  | unknownReturnType typename => s!"relationship returns unknown type `{typename}`"
  | conflictingLocation typename first second =>
    s!"type `{typename}` is stored in both {first} and {second}"
  | invalidPagination setting =>
    s!"invalid pagination annotation `{setting}` (expected `on` or `off`)"
  | unknownOperator name => s!"unknown filter operator `{name}`"
  | missingType typename => s!"no type `{typename}` in meta schema"
  | missingField path => s!"no field `{path}` in meta schema"

end SchemaFault

structure SchemaError where
  trail : List String
  fault : SchemaFault
deriving DecidableEq

namespace SchemaError

def ofFault (fault : SchemaFault) : SchemaError := ⟨[], fault⟩

/-- Puts one more place in front of the trail. -/
def within (place : String) (error : SchemaError) : SchemaError :=
  { error with trail := place :: error.trail }

def message (error : SchemaError) : String :=
  ": ".intercalate (error.trail ++ [error.fault.message])

def inType (typename : String) : SchemaError → SchemaError := within ("Type: " ++ typename)

def inField (fieldname : String) : SchemaError → SchemaError := within ("Field: " ++ fieldname)

end SchemaError

end DocGraph
