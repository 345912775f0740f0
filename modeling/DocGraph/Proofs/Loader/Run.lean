import DocGraph.Loader.Basic
import DocGraph.Proofs.Store.Draining

/-!
# Runs of a loader

A run is a list of events in any order: loads arrive, window timers fire, and
replies of the store reach flights in any place. A run keeps what the outside
sees of it: who made a load and what it got, and which calls the store answered.
-/

namespace DocGraph

open Json

inductive LoaderEvent where
  | load (context : RequestContext) (request : LoadRequest)
  | fire
  /-- The store answers the flight in a place. -/
  | reply (place : Nat) (reply : StoreReply)

/-- The reply to a load that is answered at once. -/
inductive LoadRequest.AtOnce (request : LoadRequest) (batchSize : Nat) : LoadReply → Prop
  | empty (none : request.ids = []) : AtOnce request batchSize (.ok [])
  | tooMany (asks : request.ids ≠ []) (exceeds : batchSize < request.distinctIds) :
      AtOnce request batchSize (.error (.tooManyIds request.distinctIds batchSize))

theorem LoadRequest.distinctIds_le (request : LoadRequest) :
    request.distinctIds ≤ request.ids.length := by
  have counted := NameSet.size_insertAll_le .empty request.ids
  rwa [show NameSet.empty.size = 0 from rfl, Nat.zero_add] at counted

/-- What the caller of a load holds right after it. -/
inductive Receipt where
  | answered (reply : LoadReply)
  /-- The ticket of the waiter that stands for the caller. -/
  | waiting (ticket : Nat)

/-- A load from the side of its caller. -/
structure Caller where
  context : RequestContext
  request : LoadRequest
  receipt : Receipt

/-- An answered call of the store and the flight that made it, as it was then. -/
structure StoreCall where
  flight : Flight
  reply : StoreReply

def StoreCall.exchange (call : StoreCall) : Exchange := ⟨call.flight.drain.query, call.reply⟩

structure LoaderRun where
  loader : Loader
  /-- The number of window timers that were started and have not fired. -/
  timers : Nat := 0
  callers : List Caller := []
  answers : List Answer := []
  calls : List StoreCall := []

namespace LoaderRun

def start (batchSize : Nat) : LoaderRun := { loader := { batchSize } }

/-- A load that finds no armed timer starts one, and without a timer no window
fires. -/
def step (run : LoaderRun) : LoaderEvent → LoaderRun
  | .load context request =>
    match run.loader.load context request with
    | .answered reply =>
      { run with callers := run.callers ++ [⟨context, request, .answered reply⟩] }
    | .waiting waiter loader =>
      { run with
        loader
        timers := if run.loader.timerArmed then run.timers else run.timers + 1
        callers := run.callers ++ [⟨context, request, .waiting waiter.ticket⟩] }
  | .fire =>
    match run.timers with
    | 0 => run
    | timers + 1 => { run with loader := run.loader.fire, timers }
  | .reply place reply =>
    match run.loader.flights[place]? with
    | none => run
    | some flight =>
      let (answers, loader) := run.loader.receive place reply
      { run with
        loader
        answers := run.answers ++ answers
        calls := run.calls ++ [⟨flight, reply⟩] }

def of (batchSize : Nat) (events : List LoaderEvent) : LoaderRun :=
  events.foldl step (start batchSize)

def replyOf (run : LoaderRun) (caller : Caller) : Option LoadReply :=
  match caller.receipt with
  | .answered reply => some reply
  | .waiting ticket => (run.answers.find? (·.waiter.ticket == ticket)).map (·.reply)

/-- The answered calls of the store for the load with a ticket. -/
def callsFor (run : LoaderRun) (ticket : Nat) : List StoreCall :=
  run.calls.filter fun call => call.flight.bucket.waiters.any (·.ticket == ticket)

def accepted (run : LoaderRun) : List Waiter :=
  run.callers.filterMap fun caller =>
    match caller.receipt with
    | .answered _ => none
    | .waiting ticket => some ⟨ticket, caller.context, caller.request⟩

/-- All that can happen to a run in one step. -/
inductive Step (run : LoaderRun) : LoaderRun → Prop
  | idle : Step run run
  | atOnce {context : RequestContext} {request : LoadRequest} {reply : LoadReply}
      (settled : request.AtOnce run.loader.batchSize reply) :
      Step run { run with callers := run.callers ++ [⟨context, request, .answered reply⟩] }
  | entered {context : RequestContext} {request : LoadRequest}
      (asks : request.ids ≠ []) (fits : request.distinctIds ≤ run.loader.batchSize) :
      Step run { run with
        loader := { run.loader with
          pending := Bucket.enter run.loader.batchSize
            ⟨run.loader.accepted, context, request⟩ run.loader.pending
          timerArmed := true
          accepted := run.loader.accepted + 1 }
        timers := if run.loader.timerArmed then run.timers else run.timers + 1
        callers := run.callers ++ [⟨context, request, .waiting run.loader.accepted⟩] }
  | fired {timers : Nat} (outstanding : run.timers = timers + 1) :
      Step run { run with loader := run.loader.fire, timers }
  | more {before after : List Flight} {flight : Flight} {reply : StoreReply} {drain : Drain}
      (split : run.loader.flights = before ++ flight :: after)
      (received : flight.drain.receive reply = .more drain) :
      Step run { run with
        loader := { run.loader with flights := before ++ { flight with drain } :: after }
        calls := run.calls ++ [⟨flight, reply⟩] }
  | ended {before after : List Flight} {flight : Flight} {reply : StoreReply}
      {result : Except StoreError (List Value)}
      (split : run.loader.flights = before ++ flight :: after)
      (received : flight.drain.receive reply = .ended result) :
      Step run { run with
        loader := { run.loader with flights := before ++ after }
        answers := run.answers ++ flight.bucket.answers result
        calls := run.calls ++ [⟨flight, reply⟩] }
  | aborted {flight : Flight} {reply : StoreReply} (member : flight ∈ run.loader.flights)
      (received : flight.drain.receive reply = .aborted) :
      Step run { run with
        loader := { run.loader with
          flights := run.loader.flights.filter (!·.window == flight.window) }
        answers := run.answers ++
          (run.loader.flights.filter (·.window == flight.window)).flatMap (·.bucket.dropped)
        calls := run.calls ++ [⟨flight, reply⟩] }

end LoaderRun

namespace Loader

theorem load_cases (loader : Loader) (context : RequestContext) (request : LoadRequest) :
    (∃ reply, request.AtOnce loader.batchSize reply ∧
      loader.load context request = .answered reply) ∨
    (request.ids ≠ [] ∧ request.distinctIds ≤ loader.batchSize ∧
      loader.load context request = .waiting ⟨loader.accepted, context, request⟩ { loader with
        pending := Bucket.enter loader.batchSize ⟨loader.accepted, context, request⟩ loader.pending
        timerArmed := true
        accepted := loader.accepted + 1 }) := by
  unfold load
  split
  · next empty => exact .inl ⟨_, .empty (by simpa using empty), rfl⟩
  · next nonempty =>
      have asks : request.ids ≠ [] := by simpa using nonempty
      split
      · next exceeds => exact .inl ⟨_, .tooMany asks exceeds, rfl⟩
      · next fits => exact .inr ⟨asks, by omega, rfl⟩

theorem load_waiting (loader : Loader) (context : RequestContext) {request : LoadRequest}
    (asks : request.ids ≠ []) (fits : request.distinctIds ≤ loader.batchSize) :
    loader.load context request = .waiting ⟨loader.accepted, context, request⟩ { loader with
      pending := Bucket.enter loader.batchSize ⟨loader.accepted, context, request⟩ loader.pending
      timerArmed := true
      accepted := loader.accepted + 1 } := by
  rcases loader.load_cases context request with ⟨_, settled, _⟩ | ⟨_, _, waiting⟩
  · cases settled with
    | empty none => exact absurd none asks
    | tooMany _ exceeds => omega
  · exact waiting

end Loader

namespace LoaderRun

theorem step_spec (run : LoaderRun) (event : LoaderEvent) : Step run (run.step event) := by
  cases event with
  | load context request =>
      rcases run.loader.load_cases context request with
        ⟨reply, settled, answered⟩ | ⟨asks, fits, waiting⟩
      · simp only [step, answered]
        exact .atOnce settled
      · simp only [step, waiting]
        exact .entered asks fits
  | fire =>
      simp only [step]
      split
      · exact .idle
      · next timers outstanding => exact .fired outstanding
  | reply place reply =>
      simp only [step]
      split
      · exact .idle
      · next flight found =>
          obtain ⟨inside, here⟩ := List.getElem?_eq_some_iff.mp found
          have split : run.loader.flights =
              run.loader.flights.take place ++ flight :: run.loader.flights.drop (place + 1) := by
            rw [← here, ← List.drop_eq_getElem_cons inside, List.take_append_drop]
          simp only [Loader.receive, found]
          cases received : flight.drain.receive reply with
          | more drain =>
              simp only [List.set_eq_take_append_cons_drop, inside, if_true, List.append_nil]
              exact .more split received
          | ended result =>
              simp only [List.eraseIdx_eq_take_drop_succ]
              exact .ended split received
          | aborted =>
              simp only [List.partition_eq_filter_filter]
              exact .aborted (List.mem_of_getElem? found) received

theorem Step.batchSize_eq {before after : LoaderRun} (step : Step before after) :
    after.loader.batchSize = before.loader.batchSize := by
  cases step <;> rfl

/-- What every step keeps holds from one run on. -/
theorem foldl_induction {batchSize : Nat} {motive : LoaderRun → Prop}
    (kept : ∀ {before after : LoaderRun}, before.loader.batchSize = batchSize →
      motive before → Step before after → motive after)
    (events : List LoaderEvent) {run : LoaderRun} (size : run.loader.batchSize = batchSize)
    (held : motive run) : motive (events.foldl step run) := by
  induction events generalizing run with
  | nil => exact held
  | cons event rest ih =>
      have step := run.step_spec event
      exact ih (step.batchSize_eq.trans size) (kept size held step)

/-- What every step keeps holds in every run. -/
theorem of_induction {batchSize : Nat} {motive : LoaderRun → Prop}
    (initial : motive (start batchSize))
    (kept : ∀ {before after : LoaderRun}, before.loader.batchSize = batchSize →
      motive before → Step before after → motive after)
    (events : List LoaderEvent) : motive (of batchSize events) :=
  foldl_induction kept events rfl initial

theorem of_batchSize (batchSize : Nat) (events : List LoaderEvent) :
    (of batchSize events).loader.batchSize = batchSize :=
  of_induction (motive := fun run => run.loader.batchSize = batchSize) rfl
    (fun _ held step => step.batchSize_eq.trans held) events

theorem of_append (batchSize : Nat) (earlier later : List LoaderEvent) :
    of batchSize (earlier ++ later) = later.foldl step (of batchSize earlier) :=
  List.foldl_append

theorem of_concat (batchSize : Nat) (events : List LoaderEvent) (event : LoaderEvent) :
    of batchSize (events ++ [event]) = (of batchSize events).step event :=
  of_append batchSize events [event]

/-- What holds at some moment of a run and is kept by every step holds from then on. -/
theorem later_induction {batchSize : Nat} {motive : LoaderRun → Prop}
    {earlier : List LoaderEvent} (held : motive (of batchSize earlier))
    (kept : ∀ {before after : LoaderRun}, before.loader.batchSize = batchSize →
      motive before → Step before after → motive after)
    (later : List LoaderEvent) : motive (of batchSize (earlier ++ later)) := by
  rw [of_append]
  exact foldl_induction kept later (of_batchSize batchSize earlier) held

/-- Every caller holds the reply that its load gets at once, or a ticket of a load
that asks for some ids and fits into a batch. -/
theorem callers_of (batchSize : Nat) (events : List LoaderEvent) :
    ∀ caller ∈ (of batchSize events).callers,
      (∃ reply, caller.receipt = .answered reply ∧ caller.request.AtOnce batchSize reply) ∨
      (∃ ticket, caller.receipt = .waiting ticket ∧ caller.request.ids ≠ [] ∧
        caller.request.distinctIds ≤ batchSize) := by
  refine of_induction (motive := fun run => ∀ caller ∈ run.callers,
    (∃ reply, caller.receipt = .answered reply ∧ caller.request.AtOnce batchSize reply) ∨
    (∃ ticket, caller.receipt = .waiting ticket ∧ caller.request.ids ≠ [] ∧
      caller.request.distinctIds ≤ batchSize)) (by simp [start]) ?_ events
  intro before after size held step
  cases step with
  | atOnce settled =>
      intro caller member
      rcases List.mem_append.mp member with old | new
      · exact held caller old
      · rw [List.mem_singleton.mp new]
        exact .inl ⟨_, rfl, size ▸ settled⟩
  | entered asks fits =>
      intro caller member
      rcases List.mem_append.mp member with old | new
      · exact held caller old
      · rw [List.mem_singleton.mp new]
        exact .inr ⟨_, rfl, asks, size ▸ fits⟩
  | _ => exact held

end LoaderRun

end DocGraph
