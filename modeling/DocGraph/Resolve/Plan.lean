import DocGraph.Resolve.Arguments
import DocGraph.Resolve.Graph
import DocGraph.Store.Page

/-!
# Plans

What has to be fetched for a field, once the column that it starts from was
read. Planning needs no store: it ends with an answer, with the ids of records
to load, or with the filters and sort keys of a query.
-/

namespace DocGraph

open Json

inductive Resolved where
  | null
  | value (value : Value)
  | record (record : Record)
  | records (records : List Record)
  | page (page : Page)

inductive Plan where
  | answer (resolved : Resolved)
  | load (ids : List String)
  | query (filters : List Filter) (keys : List SortKey)

/-- The query that a plan comes down to. -/
inductive RelatedQuery where
  | page (request : PageRequest)
  | list (location : Location) (statement : Statement)
  /-- At most one row; two are asked for so that a second one shows. -/
  | single (location : Location) (statement : Statement)

/-- The ids that the value of a key column holds. Null holds none, and nulls in a
list are passed over. -/
def keysOf (column : String) : Value → Except ResolveFault (List String)
  | .null => .ok []
  | .string id => .ok [id]
  | .array items => (items.filter (!·.isNull)).mapM fun
    | .string id => .ok id
    | other => .error (.invalidKey column other)
  | other => .error (.invalidKey column other)

namespace FieldResolver

variable (resolver : FieldResolver)

def nothing : Resolved := if resolver.field.returnMany then .records [] else .null

/-- The answer of a field that is no page: a list, or at most one record. -/
def shape (records : List Record) : Except ResolveFault Resolved :=
  if resolver.field.returnMany then .ok (.records records)
  else
    match records with
    | [] => .ok .null
    | [record] => .ok (.record record)
    | _ => .error (.cardinality resolver.typename resolver.field.fieldname records.length)

def missingKey (column : String) : ResolveFault :=
  .missingKey resolver.typename resolver.field.fieldname column

def location : Except ResolveFault Location :=
  match resolver.field.placement.location? with
  | some location => .ok location
  | none => .error (.missingLocation resolver.typename resolver.field.fieldname)

/-- The filters and sort keys of the arguments, filters first. -/
def clientQuery (arguments : Arguments) :
    Except ResolveFault (List Filter × List SortKey) := do
  let filters ← (Filter.ofInput arguments.filter).mapError ResolveFault.query
  let keys ← (SortKey.ofInput arguments.sort).mapError ResolveFault.query
  return (filters, keys)

/-- The condition that a related record has one of the ids. -/
def idCondition (ids : List String) : Filter :=
  match ids with
  | [id] =>
    if resolver.field.returnMany then .onColumn Column.id .oneOf (.texts [id])
    else .onColumn Column.id .equal (.string id)
  | _ => .onColumn Column.id .oneOf (.texts ids)

def planRoot (arguments : Arguments) : Except ResolveFault Plan := do
  let (filters, keys) ← clientQuery arguments
  return .query filters keys

/-- The plan of a field whose keys the parent keeps in a column with a value.
Records are loaded by id if nothing but their ids restricts them and one batch
takes all ids. -/
def planOurs (batchSize : Nat) (arguments : Arguments) (column : String) (value : Value) :
    Except ResolveFault Plan := do
  let ids ← keysOf column value
  let (filters, keys) ← clientQuery arguments
  if filters.isEmpty && keys.isEmpty && !resolver.field.isPaginated && ids.length ≤ batchSize then
    return if ids.isEmpty then .answer resolver.nothing else .load ids
  else if ids.isEmpty && !resolver.field.isPaginated then
    return .answer resolver.nothing
  else
    return .query (resolver.idCondition ids :: filters) keys

/-- Whether the related type keeps a list of keys in a column. -/
def keepsKeyList (catalog : Catalog) (column : String) : Bool :=
  let target := resolver.field.returnTypename
  match (catalog.oursField? target column).or (catalog.field? target column) with
  | some reverse => reverse.returnMany
  | none => false

/-- The condition that a related record keeps the key of the parent. -/
def reverseCondition (catalog : Catalog) (column id : String) : Filter :=
  let operator := if resolver.keepsKeyList catalog column then .oneOf else .equal
  .onColumn column operator (.string id)

def planTheirs (catalog : Catalog) (source : Record) (arguments : Arguments) :
    Except ResolveFault Plan :=
  match resolver.field.theirs, source.id? with
  | none, _ => .error (resolver.missingKey "theirs")
  | some _, none => .error (resolver.missingKey Column.id)
  | some column, some id => do
    let (filters, keys) ← clientQuery arguments
    return .query (resolver.reverseCondition catalog column id :: filters) keys

/-- What a value inside the parent stands for. Of a declared type, objects are
records. -/
def embeddedAnswer (catalog : Catalog) (value : Value) : Resolved :=
  let isDeclared := (catalog.entity? resolver.field.returnTypename).isSome
  match value with
  | .null => .null
  | .array items =>
    if isDeclared then .records (items.map Record.ofValue) else .value (.array items)
  | .object members =>
    if isDeclared then .record (.ofValue (.object members)) else .value (.object members)
  | scalar => .value scalar

def columnAnswer (value : Value) : Resolved :=
  match value with
  | .null => .null
  | other => .value other

/-- The load of related records with given ids. -/
def loadRequest (catalog : Catalog) (location : Location) (ids : List String)
    (selection : Selection) : LoadRequest where
  typename := resolver.field.returnTypename
  location
  columns := catalog.selectedColumns resolver.field.returnTypename (some selection)
  ids

/-- The query of related records. Below a page, the selection of its items
decides the columns. -/
def relatedQuery (graph : Graph) (filters : List Filter) (keys : List SortKey)
    (arguments : Arguments) (selection : Selection) : Except ResolveFault RelatedQuery := do
  let location ← resolver.location
  let catalog := graph.catalog
  let target := resolver.field.returnTypename
  if resolver.field.isPaginated then
    let columns := catalog.selectedColumns target (selection.child? "items")
    let select ← (catalog.select target columns filters keys).mapError ResolveFault.query
    let count ← (catalog.count target filters).mapError ResolveFault.query
    return .page {
      typename := target
      location
      select
      count
      cursor := arguments.cursor
      limit := some (graph.settings.paging.effectiveLimit arguments.limit) }
  else
    let columns := catalog.selectedColumns target (some selection)
    let select ← (catalog.select target columns filters keys).mapError ResolveFault.query
    return if resolver.field.returnMany then .list location select else .single location select

end FieldResolver

end DocGraph
