import DocGraph.Fetch.Basic
import DocGraph.Resolve.Plan

/-!
# Resolving fields

A field is resolved on a record within a scope. The column that the field starts
from is read, a plan is made, and what the plan names is fetched. Errors are
framed with the field and pass through the hook of the graph.
-/

namespace DocGraph

open Json

/-- A graph and the request on whose behalf its fields are resolved. -/
structure Scope where
  graph : Graph
  context : RequestContext

/-- A fetch that may fail. -/
abbrev FieldFetch := Fetch (Except ResolveFault Resolved)

namespace Scope

variable (scope : Scope)

/-- Reads a column of a record. A column that was not loaded with a row is
fetched; what cannot be found is null. -/
def readColumn (source : Record) (column : String) (next : Value → FieldFetch) : FieldFetch :=
  match source.get? column, source.origin with
  | some value, _ => next value
  | none, none => next .null
  | none, some origin =>
    (Fetch.loadOne scope.context ⟨origin.typename, origin.location, [column], [origin.id]⟩).bind
      fun
      | .ok row => next ((row.bind (·.get? column)).getD .null)
      | .error error => .done (.error (.loader error))

/-- Loads related records by id. Ids without a record are passed over. -/
def loadRelated (resolver : FieldResolver) (ids : List String) (selection : Selection) :
    FieldFetch :=
  match resolver.location with
  | .error fault => .done (.error fault)
  | .ok location =>
    let request := resolver.loadRequest scope.graph.catalog location ids selection
    (Fetch.loadAll scope.context request).bind fun
      | .error error => .done (.error (.loader error))
      | .ok rows => .done (resolver.shape
          ((rows.filterMap id).map (Record.ofRow .single request.typename location)))

def relatedCall (location : Location) (statement : Statement) (limit : Option Nat) : StoreQuery :=
  ⟨scope.context, location, statement, none, limit⟩

/-- Queries related records. -/
def queryRelated (resolver : FieldResolver) : RelatedQuery → FieldFetch
  | .page request => .done (.ok (.page { context := scope.context, request }))
  | .list location statement =>
    .drain (scope.relatedCall location statement none) fun
      | .error error => .done (.error (.store error))
      | .ok rows => .done (.ok (.records
          (rows.map (Record.ofRow .list resolver.field.returnTypename location))))
  | .single location statement =>
    .query (scope.relatedCall location statement (some 2)) fun
      | .error error => .done (.error (.store error))
      | .ok page => .done (resolver.shape
          (page.items.map (Record.ofRow .single resolver.field.returnTypename location)))

def execute (resolver : FieldResolver) (arguments : Arguments) (selection : Selection) :
    Plan → FieldFetch
  | .answer resolved => .done (.ok resolved)
  | .load ids => scope.loadRelated resolver ids selection
  | .query filters keys =>
    match resolver.relatedQuery scope.graph filters keys arguments selection with
    | .error fault => .done (.error fault)
    | .ok query => scope.queryRelated resolver query

def executePlanned (resolver : FieldResolver) (arguments : Arguments) (selection : Selection) :
    Except ResolveFault Plan → FieldFetch
  | .error fault => .done (.error fault)
  | .ok plan => scope.execute resolver arguments selection plan

/-- The value of a field, by the strategy of its resolver. -/
def fetchField (resolver : FieldResolver) (source : Record) (arguments : Arguments)
    (selection : Selection) : FieldFetch :=
  let catalog := scope.graph.catalog
  let execute := scope.executePlanned resolver arguments selection
  match resolver.strategy with
  | .root => execute (FieldResolver.planRoot arguments)
  | .ours =>
    match resolver.field.ours with
    | none => .done (.error (resolver.missingKey "ours"))
    | some column => scope.readColumn source column fun value =>
      execute (resolver.planOurs scope.graph.settings.loader.batchSize arguments column value)
  | .theirs => execute (resolver.planTheirs catalog source arguments)
  | .embedded => scope.readColumn source resolver.field.fieldname fun value =>
    .done (.ok (resolver.embeddedAnswer catalog value))
  | .column => scope.readColumn source resolver.field.fieldname fun value =>
    .done (.ok (FieldResolver.columnAnswer value))

/-- The frame that a resolver puts around its errors. -/
def frame (resolver : FieldResolver) (source : Record) : ResolveFrame where
  strategy := resolver.strategy.label
  typename := resolver.typename
  id := source.id?
  field := resolver.field.fieldname

def missingResolver (info : FieldInfo) : ResolveError :=
  match scope.graph.catalog.requireField info.parentType info.fieldname with
  | .error error => .ofFault (.schema error)
  | .ok _ => .ofFault (.schema (.ofFault (.missingField info.fieldname)))

def resolve (source : Record) (arguments : Arguments) (info : FieldInfo) :
    Fetch (Except ResolveError Resolved) :=
  match scope.graph.resolver? info.parentType info.fieldname with
  | none => .done (.error (scope.graph.onError (scope.missingResolver info) info))
  | some resolver =>
    (scope.fetchField resolver source arguments info.selection).map fun result =>
      result.mapError fun fault =>
        scope.graph.onError (.traced (frame resolver source) (.ofFault fault)) info

end Scope

end DocGraph
