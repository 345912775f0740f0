import DocGraph.Query.Statement
import DocGraph.Schema.Placement

/-!
# Stores

A store answers queries in pages of raw rows. It is a function of the queries
that were made before and of the query that is made now, so that a store may
change between calls. The list of the queries made is at the same time the log
of a run.
-/

namespace DocGraph

open Json

/-- On whose behalf a store is asked. -/
@[ext]
structure RequestContext where
  id : String
  /-- What the store needs beside the id, such as credentials. -/
  data : Value
deriving DecidableEq

namespace RequestContext

def toValue (context : RequestContext) : Value := .object [
  ("id", .string context.id),
  ("data", context.data)]

end RequestContext

structure StoreQuery where
  context : RequestContext
  location : Location
  statement : Statement
  /-- Where an earlier page ended; none stands for the beginning. -/
  cursor : Option String
  /-- The most rows of the page. -/
  limit : Option Nat
deriving DecidableEq

namespace StoreQuery

def toValue (query : StoreQuery) : Value := .object [
  ("context", query.context.toValue),
  ("database", .string query.location.database),
  ("container", .string query.location.container),
  ("queryText", .string query.statement.text),
  ("parameters", query.statement.parametersValue),
  ("cursor", .optionalText query.cursor),
  ("limit", .optionalNatural query.limit)]

end StoreQuery

structure StorePage where
  items : List Value
  /-- Where the next page begins; none on the last page. -/
  nextCursor : Option String
deriving DecidableEq

structure StoreError where
  location : Location
  reason : String
deriving DecidableEq

namespace StoreError

def message (error : StoreError) : String :=
  s!"store query on {error.location.database}/{error.location.container} failed: {error.reason}"

end StoreError

inductive StoreReply where
  | page (page : StorePage)
  | failed (error : StoreError)
  /-- The store gave up; whoever waits for it gets no answer. -/
  | aborted
deriving DecidableEq

/-- The queries that were made, the first one in front. -/
abbrev History := List StoreQuery

/-- The answer to a query after a history. -/
abbrev Store := History → StoreQuery → StoreReply

/-- How a run against a store ends. -/
inductive Outcome (α : Type) where
  | finished (result : α)
  /-- The store gave up on a query that the run made itself. -/
  | aborted
  /-- The run had no patience left. -/
  | unfinished
deriving DecidableEq

namespace Outcome

def map {α β : Type} (change : α → β) : Outcome α → Outcome β
  | finished result => finished (change result)
  | aborted => aborted
  | unfinished => unfinished

end Outcome

end DocGraph
