import DocGraph.Fetch.Schedule
import DocGraph.Proofs.Fetch.Supplied
import DocGraph.Proofs.Loader.Contexts

namespace DocGraph

open Json

namespace LoaderRun

variable {store : Store} {batchSize : Nat} {history : History} {loader : Loader} {run : LoaderRun}

/-- A run from the start leads to a loader, and its calls were made in a history. -/
structure StandsFor (run : LoaderRun) (store : Store) (batchSize : Nat) (history : History)
    (loader : Loader) : Prop where
  reached : ∃ events, of batchSize events = run
  loader : run.loader = loader
  made : ∀ call ∈ run.calls, store.Made history call.exchange

namespace StandsFor

theorem start (store : Store) (batchSize : Nat) (history : History) :
    (LoaderRun.start batchSize).StandsFor store batchSize history { batchSize } :=
  ⟨⟨[], rfl⟩, rfl, nofun⟩

theorem grown {longer : History} (stands : run.StandsFor store batchSize history loader)
    (grown : history <+: longer) : run.StandsFor store batchSize longer loader :=
  ⟨stands.reached, stands.loader, fun call made => (stands.made call made).mono grown⟩

theorem reached_step (stands : run.StandsFor store batchSize history loader)
    (event : LoaderEvent) : ∃ events, of batchSize events = run.step event := by
  obtain ⟨events, rfl⟩ := stands.reached
  exact ⟨events ++ [event], of_concat batchSize events event⟩

theorem load (stands : run.StandsFor store batchSize history loader) (context : RequestContext)
    (request : LoadRequest) :
    (∃ reply, request.AtOnce batchSize reply ∧
      loader.load context request = .answered reply) ∨
    ∃ waiter after, loader.load context request = .waiting waiter after ∧
      (run.step (.load context request)).StandsFor store batchSize history after ∧
      (run.step (.load context request)).callers =
        run.callers ++ [⟨context, request, .waiting waiter.ticket⟩] := by
  obtain ⟨events, rfl⟩ := stands.reached
  have size := of_batchSize batchSize events
  obtain rfl := stands.loader
  rcases Loader.load_cases _ context request with ⟨reply, settled, answered⟩ | ⟨_, _, waiting⟩
  · exact .inl ⟨reply, size ▸ settled, answered⟩
  · refine .inr ⟨_, _, waiting, ⟨stands.reached_step _, ?_, ?_⟩, ?_⟩
    · simp only [step, waiting]
    · simpa only [step, waiting] using stands.made
    · simp only [step, waiting]

theorem fire (stands : run.StandsFor store batchSize history loader)
    (armed : loader.timerArmed = true) :
    (run.step .fire).StandsFor store batchSize history loader.fire ∧
      (run.step .fire).callers = run.callers := by
  have reached := stands.reached_step .fire
  obtain ⟨events, rfl⟩ := stands.reached
  obtain rfl := stands.loader
  have timers := (timed batchSize events).timers
  rw [armed, if_pos rfl] at timers
  refine ⟨⟨reached, ?_, ?_⟩, ?_⟩
  · simp only [step, timers]
  · simpa only [step, timers] using stands.made
  · simp only [step, timers]

/-- The flights of a loader are answered by the store until none is left. -/
theorem settle {patience : Nat} {answers : List Answer}
    {outcome : Outcome (List Answer × Loader)} {after : History}
    (stands : run.StandsFor store batchSize history loader)
    (given : ∀ answer ∈ answers, answer ∈ run.answers)
    (settled : loader.settle store patience history answers = (outcome, after)) :
    history <+: after ∧ ∀ settledAnswers rest, outcome = .finished (settledAnswers, rest) →
      ∃ next : LoaderRun, next.StandsFor store batchSize after rest ∧ next.callers = run.callers ∧
        ∀ answer ∈ settledAnswers, answer ∈ next.answers := by
  induction patience generalizing run loader history answers with
  | zero =>
      cases settled
      exact ⟨List.prefix_refl _, nofun⟩
  | succ patience ih =>
      have reached := fun reply => stands.reached_step (.reply 0 reply)
      obtain rfl := stands.loader
      simp only [Loader.settle] at settled
      split at settled
      · cases settled
        refine ⟨List.prefix_refl _, fun _ _ same => ?_⟩
        cases same
        exact ⟨run, stands, rfl, given⟩
      · next flight others flights =>
          generalize replied : store history flight.drain.query = reply at settled
          have next : (run.step (.reply 0 reply)).StandsFor store batchSize
              (history ++ [flight.drain.query]) (run.loader.receive 0 reply).2 := by
            refine ⟨reached reply, by simp [step, flights], fun call made => ?_⟩
            have calls : (run.step (.reply 0 reply)).calls = run.calls ++ [⟨flight, reply⟩] := by
              simp [step, flights]
            rw [calls] at made
            rcases List.mem_append.mp made with old | new
            · exact (stands.made call old).mono (List.prefix_append _ _)
            · rw [List.mem_singleton.mp new]
              exact Store.made_now history replied
          have callers : (run.step (.reply 0 reply)).callers = run.callers := by
            simp [step, flights]
          have gained : ∀ answer ∈ answers ++ (run.loader.receive 0 reply).1,
              answer ∈ (run.step (.reply 0 reply)).answers := by
            intro answer member
            have answers : (run.step (.reply 0 reply)).answers =
                run.answers ++ (run.loader.receive 0 reply).1 := by
              simp [step, flights]
            rw [answers, List.mem_append]
            exact (List.mem_append.mp member).imp_left (given answer)
          obtain ⟨grown, onward⟩ := ih next gained settled
          exact ⟨(List.prefix_append _ _).trans grown, callers ▸ onward⟩

/-- What a load is answered with comes from the store. -/
theorem answered (stands : run.StandsFor store batchSize history loader) {answer : Answer}
    (given : answer ∈ run.answers) {caller : Caller} (arrived : caller ∈ run.callers)
    (receipt : caller.receipt = .waiting answer.waiter.ticket) :
    caller.request.Answered store history caller.context answer.reply := by
  have made := stands.made
  obtain ⟨events, rfl⟩ := stands.reached
  have same := (accounted batchSize events).waiter_eq_of_ticket_eq given
    (mem_accepted_of_receipt arrived receipt) rfl
  have settled := explained batchSize events answer given
  have ownReply : ∀ reply, (of batchSize events).Settled answer.waiter reply →
      caller.request.Answered store history caller.context reply := by
    intro reply settled
    cases settled with
    | failed completed => exact .failed _
    | dropped lost => exact .dropped
    | rows completed last =>
        obtain rfl := Batch.eq_rowsFor_of_last last
        obtain ⟨bucket, carried, carrier, ended⟩ := completed
        have drained := ended.drained
        have callMade : ∀ call ∈ (of batchSize events).callsFor answer.waiter.ticket,
            call ∈ (of batchSize events).calls := fun call member => (List.mem_filter.mp member).1
        obtain ⟨_, inside⟩ := List.exists_mem_of_ne_nil _ drained.calls_ne_nil
        obtain ⟨call, called, _⟩ := List.mem_map.mp inside
        have inside : bucket ∈ (of batchSize events).buckets :=
          mem_buckets.mpr (.inr (.inr ⟨call, callMade call called, carrier call called⟩))
        have merged := merged batchSize events _ inside
        obtain ⟨opener, first, context⟩ := opener batchSize events _ inside
        have name : opener.context.id = answer.waiter.context.id := congrArg BatchKey.contextId
          ((merged.key opener (List.mem_of_mem_head? first)).trans (merged.key _ carried).symm)
        rw [same] at carried name
        have handed := Store.handed_of_drained drained fun call member => by
          obtain ⟨_, inside, rfl⟩ := List.mem_map.mp member
          exact made _ (callMade _ inside)
        rw [same]
        exact .rows (context ▸ name) (merged.location_eq carried)
          (fun column asked => (merged.columns column).mpr ⟨_, carried, asked⟩) handed
  exact ownReply _ settled

end StandsFor

end LoaderRun

/-- The loader of a session is where some run leads, with the callers of that run. -/
def Session.Backed (session : Session) (store : Store) (batchSize : Nat)
    (callers : List Caller) : Prop :=
  ∃ run : LoaderRun, run.StandsFor store batchSize session.history session.loader ∧
    run.callers = callers

/-- A later session of the same loader, with all callers so far. -/
structure Session.Grows (session after : Session) (store : Store) (batchSize : Nat)
    (callers later : List Caller) : Prop where
  history : session.history <+: after.history
  callers : callers <+: later
  backed : after.Backed store batchSize later

/-- A session goes on to a later one, and what it ends with, unless it stops before, is as wanted
by what the store gave until then. -/
def Session.Attains {β : Type} (session after : Session) (store : Store) (batchSize : Nat)
    (callers : List Caller) (outcome : Outcome β) (wanted : Supply → List Caller → β → Prop) :
    Prop :=
  ∃ later, session.Grows after store batchSize callers later ∧
    ∀ result, outcome = .finished result →
      wanted (store.supply batchSize after.history) later result

namespace Session

variable {store : Store} {batchSize : Nat} {session between after : Session}
  {callers more later : List Caller}

theorem backed_new (store : Store) (settings : LoaderSettings) :
    (Session.new settings).Backed store settings.batchSize [] :=
  ⟨_, .start store settings.batchSize [], rfl⟩

theorem Backed.grows (backed : session.Backed store batchSize callers) :
    session.Grows session store batchSize callers callers :=
  ⟨List.prefix_refl _, List.prefix_refl _, backed⟩

theorem Backed.asked (backed : session.Backed store batchSize callers) (queries : History) :
    session.Grows { session with history := session.history ++ queries } store batchSize
      callers callers := by
  obtain ⟨run, stands, same⟩ := backed
  exact ⟨List.prefix_append _ _, List.prefix_refl _, run,
    stands.grown (List.prefix_append _ _), same⟩

theorem Backed.withHistory (backed : session.Backed store batchSize callers) {history : History}
    (grown : session.history <+: history) :
    session.Grows { session with history } store batchSize callers callers := by
  obtain ⟨queries, rfl⟩ := grown
  exact backed.asked queries

theorem Grows.trans (first : session.Grows between store batchSize callers more)
    (second : between.Grows after store batchSize more later) :
    session.Grows after store batchSize callers later :=
  ⟨first.history.trans second.history, first.callers.trans second.callers, second.backed⟩

section Attains

variable {β : Type} {outcome : Outcome β} {wanted : Supply → List Caller → β → Prop}

theorem Grows.finished {result : β} (grows : session.Grows after store batchSize callers later)
    (holds : wanted (store.supply batchSize after.history) later result) :
    session.Attains after store batchSize callers (.finished result) wanted := by
  refine ⟨later, grows, fun other same => ?_⟩
  cases same
  exact holds

theorem Grows.aborted (grows : session.Grows after store batchSize callers later) :
    session.Attains after store batchSize callers .aborted wanted := by
  refine ⟨later, grows, fun _ same => ?_⟩
  cases same

theorem Grows.unfinished (grows : session.Grows after store batchSize callers later) :
    session.Attains after store batchSize callers .unfinished wanted := by
  refine ⟨later, grows, fun _ same => ?_⟩
  cases same

theorem Grows.onward (first : session.Grows between store batchSize callers more)
    (rest : between.Attains after store batchSize more outcome wanted) :
    session.Attains after store batchSize callers outcome wanted := by
  obtain ⟨later, second, holds⟩ := rest
  exact ⟨later, first.trans second, holds⟩

end Attains

end Session

end DocGraph
