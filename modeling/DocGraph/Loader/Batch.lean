import DocGraph.NameSet
import DocGraph.Query.Column
import DocGraph.Store.Record
import DocGraph.Store.Basic

namespace DocGraph

open Json

/-- One load: which columns of which documents. The answer has one item for
each id, in the order of the ids. -/
structure LoadRequest where
  typename : String
  location : Location
  columns : List String
  ids : List String
deriving DecidableEq

/-- What loads have to have in common to share a query. -/
structure BatchKey where
  contextId : String
  location : Location
  typename : String
deriving DecidableEq

/-- All columns and all ids of the loads that were merged. -/
structure Batch where
  typename : String
  location : Location
  columns : NameSet
  ids : NameSet
deriving DecidableEq

inductive LoadError where
  /-- One load asks for more ids than a batch takes. -/
  | tooManyIds (requested limit : Nat)
  /-- The flush that the load was part of was given up. -/
  | dropped
  | store (error : StoreError)
deriving DecidableEq

namespace LoadError

def message : LoadError → String
  | tooManyIds requested limit =>
    s!"batch of {Nat.repr requested} ids exceeds the batch size of {Nat.repr limit}"
  | dropped => "batch was dropped before it resolved"
  | store error => error.message

end LoadError

/-- One row for each id of a load; none where the store has no such row. -/
abbrev LoadReply := Except LoadError (List (Option Value))

namespace LoadRequest

def key (request : LoadRequest) (context : RequestContext) : BatchKey where
  contextId := context.id
  location := request.location
  typename := request.typename

def toBatch (request : LoadRequest) : Batch where
  typename := request.typename
  location := request.location
  columns := .ofList request.columns
  ids := .ofList request.ids

def distinctIds (request : LoadRequest) : Nat := request.toBatch.ids.size

end LoadRequest

namespace Batch

def hasRoom (batch : Batch) (batchSize : Nat) : Bool := batch.ids.size < batchSize

def merge (batch other : Batch) : Batch :=
  { batch with
    columns := batch.columns.union other.columns
    ids := batch.ids.union other.ids }

def idsParameter : String := "@ids"

def statement (batch : Batch) : Statement where
  text := "SELECT " ++ Column.projection batch.columns.names ++ " FROM " ++ Column.document
    ++ " WHERE ARRAY_CONTAINS(" ++ idsParameter ++ ", " ++ Column.reference Column.id ++ ")"
  parameters := [⟨idsParameter, .texts batch.ids.names⟩]

/-- The call that answers the batch. A page may hold all rows at once. -/
def query (batch : Batch) (context : RequestContext) : StoreQuery where
  context
  location := batch.location
  statement := batch.statement
  cursor := none
  limit := some batch.ids.size

/-- The last of the rows with an id. -/
def row? (rows : List Value) (id : String) : Option Value :=
  rows.reverse.find? fun row => Record.idOf? row == some id

def rowsFor (rows : List Value) (ids : List String) : List (Option Value) := ids.map (row? rows)

end Batch

end DocGraph
