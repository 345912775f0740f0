import DocGraph.Store.Basic

namespace DocGraph

open Json

/-- A query that is being drained: the call to make next and the rows so far. -/
structure Drain where
  query : StoreQuery
  rows : List Value
deriving DecidableEq

/-- What one reply does to a drain. -/
inductive Progress where
  | more (drain : Drain)
  | ended (result : Except StoreError (List Value))
  | aborted

namespace Drain

def start (query : StoreQuery) : Drain := ⟨{ query with cursor := none }, []⟩

/-- The error about a cursor that was handed back. -/
def repeatedCursor (location : Location) : StoreError :=
  ⟨location, "store returned the same continuation cursor twice"⟩

def absorb (drain : Drain) (page : StorePage) : Progress :=
  let rows := drain.rows ++ page.items
  match page.nextCursor with
  | none => .ended (.ok rows)
  | some next =>
    if drain.query.cursor = some next then
      .ended (.error (repeatedCursor drain.query.location))
    else .more ⟨{ drain.query with cursor := some next }, rows⟩

def receive (drain : Drain) : StoreReply → Progress
  | .page page => drain.absorb page
  | .failed error => .ended (.error error)
  | .aborted => .aborted

end Drain

/-- Runs a drain to its end, for as many calls as there is patience. -/
def Store.drain (store : Store) :
    Nat → Drain → History → Outcome (Except StoreError (List Value)) × History
  | 0, _, history => (.unfinished, history)
  | patience + 1, drain, history =>
    let after := history ++ [drain.query]
    match drain.receive (store history drain.query) with
    | .more next => store.drain patience next after
    | .ended result => (.finished result, after)
    | .aborted => (.aborted, after)

end DocGraph
