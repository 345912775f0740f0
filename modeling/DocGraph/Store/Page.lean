import DocGraph.Store.Basic
import DocGraph.Store.Record

/-!
# Pages

A page of a result holds two queries with one condition: the select of its
window and the count of all rows. Neither is made before it is needed, and what
a successful one returned is kept. The two do not depend on each other.
-/

namespace DocGraph

open Json

structure PageRequest where
  typename : String
  location : Location
  select : Statement
  count : Statement
  cursor : Option String
  limit : Option Nat
deriving DecidableEq

namespace PageRequest

def toValue (request : PageRequest) : Value := .object [
  ("typename", .string request.typename),
  ("database", .string request.location.database),
  ("container", .string request.location.container),
  ("select", request.select.toValue),
  ("count", request.count.toValue),
  ("cursor", .optionalText request.cursor),
  ("limit", .optionalNatural request.limit)]

end PageRequest

/-- What the select of a page returned. -/
structure Window where
  items : List Record
  nextCursor : Option String
deriving DecidableEq

structure Page where
  context : RequestContext
  request : PageRequest
  /-- The window, once it was read. -/
  window : Option Window := none
  total : Option Nat := none
deriving DecidableEq

namespace Page

/-- The cursor where the page begins; it needs no query. -/
def cursor (page : Page) : Option String := page.request.cursor

def windowQuery (page : Page) : StoreQuery where
  context := page.context
  location := page.request.location
  statement := page.request.select
  cursor := page.request.cursor
  limit := page.request.limit

def countQuery (page : Page) : StoreQuery where
  context := page.context
  location := page.request.location
  statement := page.request.count
  cursor := none
  limit := none

def windowOf (request : PageRequest) (reply : StorePage) : Window where
  items := reply.items.map (Record.ofRow .list request.typename request.location)
  nextCursor := reply.nextCursor

/-- The count that a reply holds: its first row, which has to be a natural
number. -/
def countOf (request : PageRequest) (reply : StorePage) : Except StoreError Nat :=
  match reply.items.head?.bind (·.natural?) with
  | some count => .ok count
  | none => .error ⟨request.location, "count query did not return a number"⟩

/-- What an access to a page leaves behind. -/
structure Access (α : Type) where
  outcome : Outcome (Except StoreError α)
  page : Page
  history : History

namespace Access

def map {α β : Type} (part : α → β) (access : Access α) : Access β where
  outcome := access.outcome.map fun result => result.map part
  page := access.page
  history := access.history

end Access

/-- Reads the window, unless an earlier access succeeded. -/
def readWindow (store : Store) (page : Page) (history : History) : Access Window :=
  match page.window with
  | some window => ⟨.finished (.ok window), page, history⟩
  | none =>
    let after := history ++ [page.windowQuery]
    match store history page.windowQuery with
    | .page reply =>
      let window := windowOf page.request reply
      ⟨.finished (.ok window), { page with window := some window }, after⟩
    | .failed error => ⟨.finished (.error error), page, after⟩
    | .aborted => ⟨.aborted, page, after⟩

def items (store : Store) (page : Page) (history : History) : Access (List Record) :=
  (page.readWindow store history).map (·.items)

def nextCursor (store : Store) (page : Page) (history : History) : Access (Option String) :=
  (page.readWindow store history).map (·.nextCursor)

/-- Counts all rows, unless an earlier count succeeded. -/
def readTotal (store : Store) (page : Page) (history : History) : Access Nat :=
  match page.total with
  | some total => ⟨.finished (.ok total), page, history⟩
  | none =>
    let after := history ++ [page.countQuery]
    match store history page.countQuery with
    | .page reply =>
      match countOf page.request reply with
      | .ok total => ⟨.finished (.ok total), { page with total := some total }, after⟩
      | .error error => ⟨.finished (.error error), page, after⟩
    | .failed error => ⟨.finished (.error error), page, after⟩
    | .aborted => ⟨.aborted, page, after⟩

end Page

end DocGraph
