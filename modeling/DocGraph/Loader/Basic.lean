import DocGraph.Loader.Batch
import DocGraph.Settings
import DocGraph.Store.Drain

/-!
# The loader

A loader collects loads while a window is open. When the window fires, every
batch that was collected takes off as a flight of its own, and the loader is
ready for the next window. Replies of the store may reach the flights in any
order. A load is answered when the flight that carries it ends; if the store
gives up on one flight, all flights of its window are lost.
-/

namespace DocGraph

open Json

/-- A load that was accepted and is not yet answered. -/
structure Waiter where
  /-- The number of loads that were accepted before. -/
  ticket : Nat
  context : RequestContext
  request : LoadRequest
deriving DecidableEq

namespace Waiter

def key (waiter : Waiter) : BatchKey := waiter.request.key waiter.context

end Waiter

/-- A batch with the loads merged into it. It is queried in the context of the
load that opened it. -/
structure Bucket where
  key : BatchKey
  context : RequestContext
  batch : Batch
  waiters : List Waiter
deriving DecidableEq

structure Answer where
  waiter : Waiter
  reply : LoadReply

namespace Bucket

def opened (waiter : Waiter) : Bucket :=
  ⟨waiter.key, waiter.context, waiter.request.toBatch, [waiter]⟩

def takes (bucket : Bucket) (batchSize : Nat) (waiter : Waiter) : Bool :=
  bucket.key = waiter.key && bucket.batch.hasRoom batchSize

def join (bucket : Bucket) (waiter : Waiter) : Bucket :=
  { bucket with
    batch := bucket.batch.merge waiter.request.toBatch
    waiters := bucket.waiters ++ [waiter] }

/-- Puts a load into the first bucket that takes it, or else into a new one
behind all others. -/
def enter (batchSize : Nat) (waiter : Waiter) : List Bucket → List Bucket
  | [] => [opened waiter]
  | first :: rest =>
    if first.takes batchSize waiter then first.join waiter :: rest
    else first :: enter batchSize waiter rest

def answers (bucket : Bucket) (result : Except StoreError (List Value)) : List Answer :=
  bucket.waiters.map fun waiter => ⟨waiter,
    match result with
    | .ok rows => .ok (Batch.rowsFor rows waiter.request.ids)
    | .error error => .error (.store error)⟩

def dropped (bucket : Bucket) : List Answer :=
  bucket.waiters.map fun waiter => ⟨waiter, .error .dropped⟩

end Bucket

/-- A bucket whose query is under way. -/
structure Flight where
  /-- The number of the window that the bucket was collected in. -/
  window : Nat
  bucket : Bucket
  drain : Drain
deriving DecidableEq

namespace Flight

def start (window : Nat) (bucket : Bucket) : Flight :=
  ⟨window, bucket, .start (bucket.batch.query bucket.context)⟩

end Flight

structure Loader where
  batchSize : Nat
  /-- The buckets of the open window in the order of their creation. -/
  pending : List Bucket := []
  /-- Whether the window is open, so that it will fire. -/
  timerArmed : Bool := false
  /-- The number of windows that have fired. -/
  window : Nat := 0
  flights : List Flight := []
  accepted : Nat := 0

/-- What becomes of a load at once. -/
inductive Admission where
  | answered (reply : LoadReply)
  | waiting (waiter : Waiter) (loader : Loader)

namespace Loader

def ofSettings (settings : LoaderSettings) : Loader := { batchSize := settings.batchSize }

/-- Takes a load in. A load without ids is answered without a query, and one with
more ids than a batch takes is refused. -/
def load (loader : Loader) (context : RequestContext) (request : LoadRequest) : Admission :=
  if request.ids.isEmpty then .answered (.ok [])
  else if loader.batchSize < request.distinctIds then
    .answered (.error (.tooManyIds request.distinctIds loader.batchSize))
  else
    let waiter : Waiter := ⟨loader.accepted, context, request⟩
    .waiting waiter { loader with
      pending := Bucket.enter loader.batchSize waiter loader.pending
      timerArmed := true
      accepted := loader.accepted + 1 }

/-- Fires the window: every bucket takes off. -/
def fire (loader : Loader) : Loader :=
  { loader with
    pending := []
    timerArmed := false
    window := loader.window + 1
    flights := loader.flights ++ loader.pending.map (Flight.start loader.window) }

/-- Hands a reply of the store to the flight in a place. -/
def receive (loader : Loader) (place : Nat) (reply : StoreReply) : List Answer × Loader :=
  match loader.flights[place]? with
  | none => ([], loader)
  | some flight =>
    match flight.drain.receive reply with
    | .more drain =>
      ([], { loader with flights := loader.flights.set place { flight with drain } })
    | .ended result =>
      (flight.bucket.answers result, { loader with flights := loader.flights.eraseIdx place })
    | .aborted =>
      let (lost, kept) := loader.flights.partition (·.window == flight.window)
      (lost.flatMap (·.bucket.dropped), { loader with flights := kept })

/-- Brings all flights to their end with a store that answers at once: each is
drained before the next one begins. -/
def settle (store : Store) :
    Nat → Loader → History → List Answer → Outcome (List Answer × Loader) × History
  | 0, _, history, _ => (.unfinished, history)
  | patience + 1, loader, history, answers =>
    match loader.flights with
    | [] => (.finished (answers, loader), history)
    | flight :: _ =>
      let query := flight.drain.query
      let (more, after) := loader.receive 0 (store history query)
      settle store patience after (history ++ [query]) (answers ++ more)

end Loader

end DocGraph
