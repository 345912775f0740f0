import DocGraph.Fetch.Basic
import DocGraph.Loader.Basic

/-!
# Schedules

Several fetches share one loader and one store, on a clock that stands still
while anything can go on. A job runs until it waits for the loader or is done.
Jobs that may go on at one moment do so in the order of the list. When all jobs
wait, the clock jumps to the next start of a job or to the moment when the
window of the loader fires, and starts come first.
-/

namespace DocGraph

/-- A fetch that starts after a delay in milliseconds. -/
structure Job (α : Type) where
  delay : Nat
  fetch : Fetch α

inductive Stage (α : Type) where
  | sleeping (start : Nat) (fetch : Fetch α)
  /-- Waits for the answer to the load with a ticket. -/
  | waiting (ticket : Nat) (next : LoadReply → Fetch α)
  | ended (result : α)

/-- What outlives a step: the loader and the log of all queries. -/
structure Session where
  loader : Loader
  history : History

namespace Session

def new (settings : LoaderSettings) : Session := ⟨.ofSettings settings, []⟩

end Session

namespace Stage

variable {α : Type}

def ofJob (job : Job α) : Stage α := sleeping job.delay job.fetch

def startingAt (now : Nat) : Stage α → Option (Fetch α)
  | sleeping start fetch => if start ≤ now then some fetch else none
  | _ => none

def answeredBy (answers : List Answer) : Stage α → Option (Fetch α)
  | waiting ticket next =>
    (answers.find? (·.waiter.ticket == ticket)).map fun answer => next answer.reply
  | _ => none

def start? : Stage α → Option Nat
  | sleeping start _ => some start
  | _ => none

def result? : Stage α → Option α
  | ended result => some result
  | _ => none

end Stage

namespace Fetch

variable {α : Type}

/-- Runs a fetch until it waits or is done. -/
def advance (store : Store) (patience : Nat) :
    Fetch α → Session → Outcome (Stage α) × Session
  | done result, session => (.finished (.ended result), session)
  | query asked next, session =>
    let after := { session with history := session.history ++ [asked] }
    match store session.history asked with
    | .page page => advance store patience (next (.ok page)) after
    | .failed error => advance store patience (next (.error error)) after
    | .aborted => (.aborted, after)
  | drain asked next, session =>
    match store.drain patience (.start asked) session.history with
    | (.finished result, history) =>
      advance store patience (next result) { session with history }
    | (.aborted, history) => (.aborted, { session with history })
    | (.unfinished, history) => (.unfinished, { session with history })
  | load context request next, session =>
    match session.loader.load context request with
    | .answered reply => advance store patience (next reply) session
    | .waiting waiter loader =>
      (.finished (.waiting waiter.ticket next), { session with loader })

end Fetch

namespace Stage

variable {α : Type}

/-- Lets every job that is ready go on, in the order of the list. -/
def advanceReady (store : Store) (patience : Nat) (ready : Stage α → Option (Fetch α)) :
    List (Stage α) → Session → Outcome (List (Stage α)) × Session
  | [], session => (.finished [], session)
  | stage :: rest, session =>
    let (first, session) := match ready stage with
      | some fetch => fetch.advance store patience session
      | none => (.finished stage, session)
    match first with
    | .finished first =>
      let (others, session) := advanceReady store patience ready rest session
      (others.map (first :: ·), session)
    | .aborted => (.aborted, session)
    | .unfinished => (.unfinished, session)

end Stage

structure Schedule (α : Type) where
  now : Nat
  /-- When the open window fires. -/
  due : Option Nat
  stages : List (Stage α)
  session : Session

inductive NextEvent where
  | start (time : Nat)
  | fire (time : Nat)

namespace Schedule

variable {α : Type}

/-- The moment when the open window fires, which is fixed when it opens. -/
def fireTime? (batchWindow : Nat) (schedule : Schedule α) : Option Nat :=
  if schedule.session.loader.timerArmed then
    some (schedule.due.getD (schedule.now + batchWindow))
  else none

def nextEvent (batchWindow : Nat) (schedule : Schedule α) : Option NextEvent :=
  match (schedule.stages.filterMap Stage.start?).min?, schedule.fireTime? batchWindow with
  | some start, some due => some (if start ≤ due then .start start else .fire due)
  | some start, none => some (.start start)
  | none, some due => some (.fire due)
  | none, none => none

/-- Runs all jobs to their end, for as many events as there is patience. -/
def run (store : Store) (batchWindow patience : Nat) :
    Nat → Schedule α → Outcome (List α) × Session
  | 0, schedule => (.unfinished, schedule.session)
  | events + 1, schedule =>
    match schedule.nextEvent batchWindow with
    | none =>
      match schedule.stages.mapM Stage.result? with
      | some results => (.finished results, schedule.session)
      | none => (.unfinished, schedule.session)
    | some (.start time) =>
      match Stage.advanceReady store patience (Stage.startingAt time) schedule.stages
          schedule.session with
      | (.finished stages, session) =>
        run store batchWindow patience events
          ⟨time, schedule.fireTime? batchWindow, stages, session⟩
      | (.aborted, session) => (.aborted, session)
      | (.unfinished, session) => (.unfinished, session)
    | some (.fire time) =>
      match schedule.session.loader.fire.settle store patience schedule.session.history [] with
      | (.finished (answers, loader), history) =>
        match Stage.advanceReady store patience (Stage.answeredBy answers) schedule.stages
            ⟨loader, history⟩ with
        | (.finished stages, session) =>
          run store batchWindow patience events ⟨time, none, stages, session⟩
        | (.aborted, session) => (.aborted, session)
        | (.unfinished, session) => (.unfinished, session)
      | (.aborted, history) => (.aborted, { schedule.session with history })
      | (.unfinished, history) => (.unfinished, { schedule.session with history })

def start (stages : List (Stage α)) (session : Session) : Schedule α where
  now := 0
  due := none
  stages
  session

end Schedule

namespace Session

variable {α : Type}

def finish (store : Store) (settings : LoaderSettings) (patience : Nat)
    (stages : List (Stage α)) (session : Session) : Outcome (List α) × Session :=
  (Schedule.start stages session).run store settings.batchWindow patience patience

/-- Runs jobs side by side from now on, to the end of the last one. -/
def run (store : Store) (settings : LoaderSettings) (patience : Nat)
    (jobs : List (Job α)) (session : Session) : Outcome (List α) × Session :=
  session.finish store settings patience (jobs.map Stage.ofJob)

end Session

end DocGraph
