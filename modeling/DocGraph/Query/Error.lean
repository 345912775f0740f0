import DocGraph.Schema.Comparison
import DocGraph.Schema.Error

namespace DocGraph

inductive FilterInputFault where
  /-- A filter is neither null nor an object. -/
  | notAnObject (found : String)
  /-- What stands under a combinator is not an array. -/
  | notAnArray (combinator found : String)
  /-- A compared value has no parameter. -/
  | notIndexed (name : String)
deriving DecidableEq

namespace FilterInputFault

def message : FilterInputFault → String
  | notAnObject found => s!"expected an object, got {found}"
  | notAnArray combinator found => s!"`{combinator}` expects an array, got {found}"
  | notIndexed name => s!"value for `{name}` was not indexed"

end FilterInputFault

inductive SortInputFault where
  /-- A sort is neither null nor an object. -/
  | notAnObject
  /-- The priority of a key is not a number. -/
  | priorityNotANumber (key : String)
deriving DecidableEq

namespace SortInputFault

def message : SortInputFault → String
  | notAnObject => "expected an object of `<field>_<ASC|DESC>: priority`"
  | priorityNotANumber key => s!"priority for `{key}` must be a number"

end SortInputFault

inductive QueryError where
  | unknownOperator (key operator : String)
  | malformedKey (key : String)
  | malformedSortKey (key : String)
  | invalidFilter (fault : FilterInputFault)
  | invalidSort (fault : SortInputFault)
  | unknownFilterField (typename key : String)
  | unknownSortField (typename key : String)
  | operatorNotAllowed (typename field : String) (comparison : Comparison)
  /-- The operand of a comparison has to be a boolean. -/
  | operandNotBoolean (comparison : Comparison)
  | schema (error : SchemaError)
deriving DecidableEq

namespace QueryError

def message : QueryError → String
  | unknownOperator key operator => s!"unknown filter operator `{operator}` in `{key}`"
  | malformedKey key => s!"malformed filter key `{key}` (expected `<field>_<op>`)"
  | malformedSortKey key =>
    s!"malformed sort key `{key}` (expected `<field>_ASC` or `<field>_DESC`)"
  | invalidFilter fault => "invalid where input: " ++ fault.message
  | invalidSort fault => "invalid sort input: " ++ fault.message
  | unknownFilterField typename key => s!"`{key}` is not a filterable field of `{typename}`"
  | unknownSortField typename key => s!"`{key}` is not a sortable field of `{typename}`"
  | operatorNotAllowed typename field comparison =>
    s!"operator `{comparison.name}` is not allowed on `{typename}.{field}`"
  | operandNotBoolean comparison => s!"invalid value for `{comparison.name}`: expected a boolean"
  | schema error => error.message

end QueryError

end DocGraph
