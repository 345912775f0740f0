import DocGraph.Loader.Batch
import DocGraph.Query.Error
import DocGraph.Json.Printer

namespace DocGraph

open Json

inductive ResolveFault where
  | missingLocation (typename field : String)
  /-- The parent record has no value in a column that the field needs. -/
  | missingKey (typename field column : String)
  /-- A column does not hold ids. -/
  | invalidKey (column : String) (value : Value)
  /-- A field of one record got several rows. -/
  | cardinality (typename field : String) (rows : Nat)
  /-- Any other reason, in the words of the caller. -/
  | message (text : String)
  | schema (error : SchemaError)
  | query (error : QueryError)
  | loader (error : LoadError)
  | store (error : StoreError)
deriving DecidableEq

namespace ResolveFault

def describe : ResolveFault → String
  | missingLocation typename field => s!"field `{typename}.{field}` has no database/container"
  | missingKey typename field column =>
    s!"field `{typename}.{field}` needs column `{column}` on its parent record"
  | invalidKey column value =>
    s!"column `{column}` holds {value.compact}, expected an id or a list of ids"
  | cardinality typename field rows =>
    s!"field `{typename}.{field}` returns one record but the store returned {Nat.repr rows}"
  | message text => text
  | schema error => error.message
  | query error => error.message
  | loader error => error.message
  | store error => error.message

end ResolveFault

/-- The resolution of one field: how it was done, of which type and record. -/
structure ResolveFrame where
  strategy : String
  typename : String
  id : Option String
  field : String
deriving DecidableEq

namespace ResolveFrame

def describe (frame : ResolveFrame) : String :=
  let id := frame.id.getD "?"
  s!"during {frame.strategy} at {frame.typename}({id}).{frame.field}"

end ResolveFrame

structure ResolveError where
  frames : List ResolveFrame
  fault : ResolveFault
deriving DecidableEq

namespace ResolveError

def ofFault (fault : ResolveFault) : ResolveError := ⟨[], fault⟩

/-- Puts one more frame around an error. -/
def traced (frame : ResolveFrame) (error : ResolveError) : ResolveError :=
  { error with frames := frame :: error.frames }

/-- The cause alone, without any frame. -/
def rootCause (error : ResolveError) : ResolveError := ofFault error.fault

def message (error : ResolveError) : String :=
  ": ".intercalate (error.frames.map ResolveFrame.describe ++ [error.fault.describe])

end ResolveError

end DocGraph
