import DocGraph.Fetch.Schedule
import DocGraph.Proofs.Loader.Run

namespace DocGraph

open Json

/-- A drain ends with a result and leaves a history behind. -/
def Store.Drains (store : Store) (history : History) (query : StoreQuery)
    (result : Except StoreError (List Value)) (after : History) : Prop :=
  ∃ calls, store.drain calls (.start query) history = (.finished result, after)

def LoadRequest.replyFrom (request : LoadRequest) : Except StoreError (List Value) → LoadReply
  | .ok rows => .ok (Batch.rowsFor rows request.ids)
  | .error error => .error (.store error)

namespace Store

variable {store : Store}

theorem drain_mono {calls patience : Nat} {drain : Drain} {history after : History}
    {result : Except StoreError (List Value)}
    (drained : store.drain calls drain history = (.finished result, after))
    (enough : calls ≤ patience) :
    store.drain patience drain history = (.finished result, after) := by
  induction calls generalizing patience drain history with
  | zero => simp [Store.drain] at drained
  | succ calls ih =>
      obtain ⟨patience, rfl⟩ : ∃ fewer, patience = fewer + 1 := ⟨patience - 1, by omega⟩
      simp only [Store.drain] at drained ⊢
      cases received : drain.receive (store history drain.query) with
      | more next =>
          simp only [received] at drained ⊢
          exact ih drained (by omega)
      | ended ended => simpa only [received] using drained
      | aborted => simp [received] at drained

theorem drain_calls {calls : Nat} {drain : Drain} {history after : History}
    {result : Except StoreError (List Value)}
    (drained : store.drain calls drain history = (.finished result, after)) :
    ∃ made, after = history ++ made ∧
      ∀ call ∈ made, ∃ cursor, call = { drain.query with cursor } := by
  induction calls generalizing drain history with
  | zero => simp [Store.drain] at drained
  | succ calls ih =>
      simp only [Store.drain] at drained
      cases received : drain.receive (store history drain.query) with
      | more next =>
          simp only [received] at drained
          obtain ⟨page, cursor, _, _, _, rfl⟩ := Drain.receive_more received
          obtain ⟨made, rfl, same⟩ := ih drained
          refine ⟨drain.query :: made, by simp, List.forall_mem_cons.mpr ⟨⟨_, rfl⟩, ?_⟩⟩
          exact fun call member => same call member
      | ended ended =>
          simp only [received, Prod.mk.injEq] at drained
          refine ⟨[drain.query], drained.2.symm, ?_⟩
          exact fun call member => ⟨_, List.mem_singleton.mp member⟩
      | aborted => simp [received] at drained

theorem drain_rows {calls : Nat} {drain : Drain} {history after : History} {rows : List Value}
    (drained : store.drain calls drain history = (.finished (.ok rows), after)) :
    drain.rows <+: rows := by
  induction calls generalizing drain history with
  | zero => simp [Store.drain] at drained
  | succ calls ih =>
      simp only [Store.drain] at drained
      cases received : drain.receive (store history drain.query) with
      | more next =>
          simp only [received] at drained
          obtain ⟨page, cursor, _, _, _, rfl⟩ := Drain.receive_more received
          exact (List.prefix_append _ _).trans (ih drained)
      | ended ended =>
          simp only [received, Prod.mk.injEq, Outcome.finished.injEq] at drained
          obtain ⟨rfl, _⟩ := drained
          obtain ⟨page, _, _, rfl⟩ := Drain.receive_ended_ok received
          exact List.prefix_append _ _
      | aborted => simp [received] at drained

/-- The rows of a query begin with those of its first page. -/
theorem Drains.first_page {query : StoreQuery} {history after : History} {rows : List Value}
    (drains : store.Drains history query (.ok rows) after) :
    ∃ page, store history { query with cursor := none } = .page page ∧ page.items <+: rows := by
  obtain ⟨calls, drained⟩ := drains
  cases calls with
  | zero => simp [Store.drain] at drained
  | succ calls =>
      simp only [Store.drain] at drained
      cases received : (Drain.start query).receive (store history (Drain.start query).query) with
      | more next =>
          simp only [received] at drained
          obtain ⟨page, cursor, replied, _, _, rfl⟩ := Drain.receive_more received
          exact ⟨page, replied, drain_rows drained⟩
      | ended ended =>
          simp only [received, Prod.mk.injEq, Outcome.finished.injEq] at drained
          obtain ⟨rfl, _⟩ := drained
          obtain ⟨page, replied, _, rfl⟩ := Drain.receive_ended_ok received
          exact ⟨page, replied, List.prefix_refl _⟩
      | aborted => simp [received] at drained

end Store

namespace Loader

variable {store : Store} {loader : Loader}

/-- The first flight is brought to its end before the others begin. -/
theorem settle_first {calls : Nat} {flight : Flight} {others : List Flight}
    {history after : History} {result : Except StoreError (List Value)}
    (flights : loader.flights = flight :: others)
    (drained : store.drain calls flight.drain history = (.finished result, after)) :
    ∃ spent ≤ calls, ∀ patience answers, loader.settle store (patience + spent) history answers =
      ({ loader with flights := others } : Loader).settle store patience after
        (answers ++ flight.bucket.answers result) := by
  induction calls generalizing loader flight history with
  | zero => simp [Store.drain] at drained
  | succ calls ih =>
      simp only [Store.drain] at drained
      cases received : flight.drain.receive (store history flight.drain.query) with
      | more next =>
          simp only [received] at drained
          let onward : Flight := { flight with drain := next }
          have goesOn : ({ loader with flights := onward :: others } : Loader).flights =
            onward :: others := rfl
          obtain ⟨spent, few, settles⟩ := ih goesOn drained
          refine ⟨spent + 1, Nat.succ_le_succ few, fun patience answers => ?_⟩
          rw [← Nat.add_assoc, settle, flights]
          simpa [receive, flights, received] using settles patience answers
      | ended ended =>
          simp only [received, Prod.mk.injEq, Outcome.finished.injEq] at drained
          obtain ⟨rfl, rfl⟩ := drained
          refine ⟨1, by omega, fun patience answers => ?_⟩
          rw [settle, flights]
          simp [receive, flights, received]
      | aborted => simp [received] at drained

theorem settle_only {calls patience : Nat} {flight : Flight} {history after : History}
    {result : Except StoreError (List Value)} {answers : List Answer}
    (only : loader.flights = [flight])
    (drained : store.drain calls flight.drain history = (.finished result, after))
    (enough : calls < patience) :
    loader.settle store patience history answers =
      (.finished (answers ++ flight.bucket.answers result, { loader with flights := [] }),
        after) := by
  obtain ⟨spent, few, settles⟩ := settle_first only drained
  obtain ⟨fewer, rfl⟩ : ∃ fewer, patience = fewer + 1 + spent := ⟨patience - spent - 1, by omega⟩
  rw [settles]
  rfl

theorem load_atOnce {request : LoadRequest} {reply : LoadReply} (context : RequestContext)
    (settled : request.AtOnce loader.batchSize reply) :
    loader.load context request = .answered reply := by
  cases settled with
  | empty none => simp [load, none]
  | tooMany asks exceeds => simp [load, asks, exceeds]

end Loader

namespace Fetch

variable {α β : Type} {store : Store} {batchSize : Nat} {history later : History}

/-- A fetch comes to a later fetch when each of its requests is answered, and the history of
the store grows on the way. A load is a batch of its own. -/
inductive Reaches (store : Store) (batchSize : Nat) :
    History → Fetch α → History → Fetch α → Prop
  | here {history : History} {fetch : Fetch α} :
      Reaches store batchSize history fetch history fetch
  | answered {history later : History} {asked : StoreQuery}
      {next : Except StoreError StorePage → Fetch α} {fetch : Fetch α} {page : StorePage}
      (replied : store history asked = .page page)
      (rest : Reaches store batchSize (history ++ [asked]) (next (.ok page)) later fetch) :
      Reaches store batchSize history (query asked next) later fetch
  | failed {history later : History} {asked : StoreQuery}
      {next : Except StoreError StorePage → Fetch α} {fetch : Fetch α} {error : StoreError}
      (replied : store history asked = .failed error)
      (rest : Reaches store batchSize (history ++ [asked]) (next (.error error)) later fetch) :
      Reaches store batchSize history (query asked next) later fetch
  | drained {history between later : History} {asked : StoreQuery}
      {next : Except StoreError (List Value) → Fetch α} {fetch : Fetch α}
      {result : Except StoreError (List Value)}
      (drains : store.Drains history asked result between)
      (rest : Reaches store batchSize between (next result) later fetch) :
      Reaches store batchSize history (drain asked next) later fetch
  | atOnce {history later : History} {context : RequestContext} {request : LoadRequest}
      {next : LoadReply → Fetch α} {fetch : Fetch α} {reply : LoadReply}
      (settled : request.AtOnce batchSize reply)
      (rest : Reaches store batchSize history (next reply) later fetch) :
      Reaches store batchSize history (load context request next) later fetch
  | loaded {history between later : History} {context : RequestContext} {request : LoadRequest}
      {next : LoadReply → Fetch α} {fetch : Fetch α} {result : Except StoreError (List Value)}
      (asks : request.ids ≠ []) (fits : request.distinctIds ≤ batchSize)
      (drains : store.Drains history (request.toBatch.query context) result between)
      (rest : Reaches store batchSize between (next (request.replyFrom result)) later fetch) :
      Reaches store batchSize history (load context request next) later fetch

namespace Reaches

theorem trans {last : History} {first second third : Fetch α}
    (front : first.Reaches store batchSize history later second)
    (back : second.Reaches store batchSize later last third) :
    first.Reaches store batchSize history last third := by
  induction front with
  | here => exact back
  | answered replied _ ih => exact .answered replied (ih back)
  | failed replied _ ih => exact .failed replied (ih back)
  | drained drains _ ih => exact .drained drains (ih back)
  | atOnce settled _ ih => exact .atOnce settled (ih back)
  | loaded asks fits drains _ ih => exact .loaded asks fits drains (ih back)

theorem grows {fetch rest : Fetch α}
    (reaches : fetch.Reaches store batchSize history later rest) :
    ∃ calls, later = history ++ calls := by
  induction reaches with
  | here => exact ⟨[], by simp⟩
  | @answered _ _ asked _ _ _ _ _ ih =>
      obtain ⟨calls, rfl⟩ := ih
      exact ⟨asked :: calls, by simp⟩
  | @failed _ _ asked _ _ _ _ _ ih =>
      obtain ⟨calls, rfl⟩ := ih
      exact ⟨asked :: calls, by simp⟩
  | drained drains _ ih =>
      obtain ⟨_, drained⟩ := drains
      obtain ⟨made, rfl, _⟩ := Store.drain_calls drained
      obtain ⟨calls, rfl⟩ := ih
      exact ⟨made ++ calls, by simp⟩
  | atOnce _ _ ih => exact ih
  | loaded _ _ drains _ ih =>
      obtain ⟨_, drained⟩ := drains
      obtain ⟨made, rfl, _⟩ := Store.drain_calls drained
      obtain ⟨calls, rfl⟩ := ih
      exact ⟨made ++ calls, by simp⟩

theorem bind {first second : Fetch α} (after : α → Fetch β)
    (reaches : first.Reaches store batchSize history later second) :
    (first.bind after).Reaches store batchSize history later (second.bind after) := by
  induction reaches with
  | here => exact .here
  | answered replied _ ih => exact .answered replied ih
  | failed replied _ ih => exact .failed replied ih
  | drained drains _ ih => exact .drained drains ih
  | atOnce settled _ ih => exact .atOnce settled ih
  | loaded asks fits drains _ ih => exact .loaded asks fits drains ih

theorem map {first second : Fetch α} (change : α → β)
    (reaches : first.Reaches store batchSize history later second) :
    (first.map change).Reaches store batchSize history later (second.map change) :=
  reaches.bind _

end Reaches

end Fetch

/-- No load waits and nothing is under way. -/
structure Session.Rests (session : Session) (batchSize : Nat) : Prop where
  batchSize : session.loader.batchSize = batchSize
  pending : session.loader.pending = []
  unarmed : session.loader.timerArmed = false
  landed : session.loader.flights = []

theorem Session.Rests.withHistory {session : Session} {batchSize : Nat}
    (rests : session.Rests batchSize) (history : History) :
    Session.Rests { session with history } batchSize :=
  ⟨rests.batchSize, rests.pending, rests.unarmed, rests.landed⟩

theorem Session.rests_new (settings : LoaderSettings) :
    (Session.new settings).Rests settings.batchSize :=
  ⟨rfl, rfl, rfl, rfl⟩

namespace Fetch

variable {α : Type} {store : Store} {settings : LoaderSettings}

/-- As the only job of a session, a fetch ends with a result after some calls. -/
def Ends (fetch : Fetch α) (store : Store) (settings : LoaderSettings) (session : Session)
    (result : α) (calls : History) : Prop :=
  ∃ enough, ∀ patience, enough ≤ patience → ∃ loader,
    session.run store settings patience [⟨0, fetch⟩] =
      (.finished [result], ⟨loader, session.history ++ calls⟩)

theorem run_ended {patience events : Nat} {session : Session} (now : Nat) (result : α)
    (unarmed : session.loader.timerArmed = false) :
    Schedule.run store settings.batchWindow patience (events + 1)
      ⟨now, none, [.ended result], session⟩ = (.finished [result], session) := by
  have ended : Schedule.nextEvent settings.batchWindow
      ⟨now, none, [.ended result], session⟩ = none := by
    simp only [Schedule.nextEvent, Schedule.fireTime?, unarmed]
    rfl
  rw [Schedule.run, ended]
  rfl

/-- The window of the only load fires, and the load goes on with the reply of its own batch. -/
theorem run_waiting {patience calls : Nat} {session : Session} {between : History}
    {context : RequestContext} {request : LoadRequest} {next : LoadReply → Fetch α}
    {result : Except StoreError (List Value)} (rests : session.Rests settings.batchSize)
    (drained : store.drain calls (.start (request.toBatch.query context)) session.history =
      (.finished result, between)) (enough : calls < patience) :
    ∃ resumed : Session, resumed.Rests settings.batchSize ∧ resumed.history = between ∧
      ∀ {stage : Stage α} {after : Session},
        (next (request.replyFrom result)).advance store patience resumed =
          (.finished stage, after) →
        ∀ events now, Schedule.run store settings.batchWindow patience (events + 1)
            ⟨now, none, [.waiting session.loader.accepted next], { session with
              loader := { session.loader with
                pending := Bucket.enter session.loader.batchSize
                  ⟨session.loader.accepted, context, request⟩ session.loader.pending
                timerArmed := true
                accepted := session.loader.accepted + 1 } }⟩ =
          Schedule.run store settings.batchWindow patience events
            ⟨now + settings.batchWindow, none, [stage], after⟩ := by
  obtain ⟨size, empty, _, landed⟩ := rests
  let waiter : Waiter := ⟨session.loader.accepted, context, request⟩
  let resting : Loader := { session.loader with
    pending := []
    timerArmed := false
    window := session.loader.window + 1
    accepted := session.loader.accepted + 1
    flights := [] }
  let flying : Loader := { resting with
    flights := [Flight.start session.loader.window (.opened waiter)] }
  have only : flying.flights = [Flight.start session.loader.window (.opened waiter)] := rfl
  have settled : flying.settle store patience session.history [] =
      (.finished ([] ++ (Bucket.opened waiter).answers result, resting), between) :=
    Loader.settle_only only drained enough
  have answers : (Bucket.opened waiter).answers result =
      [⟨waiter, request.replyFrom result⟩] := by
    cases result <;> rfl
  refine ⟨⟨resting, between⟩, ⟨size, rfl, rfl, rfl⟩, rfl,
    fun {stage after} advanced events now => ?_⟩
  rw [answers, List.nil_append] at settled
  have fired : Loader.fire { session.loader with
      pending := Bucket.enter session.loader.batchSize waiter session.loader.pending
      timerArmed := true
      accepted := session.loader.accepted + 1 } = flying := by
    simp [Loader.fire, flying, resting, landed, empty, Bucket.enter]
  have woken : Stage.advanceReady store patience
      (Stage.answeredBy [⟨waiter, request.replyFrom result⟩])
      [.waiting session.loader.accepted next] ⟨resting, between⟩ = (.finished [stage], after) := by
    simp [Stage.advanceReady, Stage.answeredBy, waiter, advanced, Outcome.map]
  have due : Schedule.nextEvent settings.batchWindow
      ⟨now, none, [.waiting session.loader.accepted next], { session with
        loader := { session.loader with
          pending := Bucket.enter session.loader.batchSize waiter session.loader.pending
          timerArmed := true
          accepted := session.loader.accepted + 1 } }⟩ =
      some (.fire (now + settings.batchWindow)) := rfl
  rw [Schedule.run, due]
  simp only [waiter] at fired
  simp only [fired, settled, woken]

namespace Reaches

/-- From where a fetch stands, the schedule runs to the end that the fetch reaches. -/
theorem run {fetch : Fetch α} {result : α} {history after : History}
    (reaches : fetch.Reaches store settings.batchSize history after (.done result)) :
    ∃ enough, ∀ patience, enough ≤ patience → ∀ session : Session,
      session.Rests settings.batchSize → session.history = history →
      ∃ stage advanced, fetch.advance store patience session = (.finished stage, advanced) ∧
        ∀ events, enough ≤ events → ∀ now, ∃ loader,
          Schedule.run store settings.batchWindow patience events ⟨now, none, [stage], advanced⟩ =
            (.finished [result], ⟨loader, after⟩) := by
  generalize final : Fetch.done result = ending at reaches
  induction reaches with
  | here =>
      subst final
      refine ⟨1, fun patience _ session rests same => ⟨_, session, rfl, fun events some now => ?_⟩⟩
      obtain ⟨events, rfl⟩ : ∃ fewer, events = fewer + 1 := ⟨events - 1, by omega⟩
      exact ⟨session.loader, by rw [run_ended now result rests.unarmed, ← same]⟩
  | @answered history _ asked _ _ _ replied _ ih =>
      obtain ⟨enough, runs⟩ := ih final
      refine ⟨enough, fun patience more session rests same => ?_⟩
      subst same
      have goesOn := runs patience more _ (rests.withHistory (session.history ++ [asked])) rfl
      simpa only [advance, replied] using goesOn
  | @failed history _ asked _ _ _ replied _ ih =>
      obtain ⟨enough, runs⟩ := ih final
      refine ⟨enough, fun patience more session rests same => ?_⟩
      subst same
      have goesOn := runs patience more _ (rests.withHistory (session.history ++ [asked])) rfl
      simpa only [advance, replied] using goesOn
  | @drained history between _ asked _ _ _ drains _ ih =>
      obtain ⟨calls, drained⟩ := drains
      obtain ⟨enough, runs⟩ := ih final
      refine ⟨max calls enough, fun patience more session rests same => ?_⟩
      subst same
      have drained := store.drain_mono drained (by omega : calls ≤ patience)
      have goesOn := runs patience (by omega) _ (rests.withHistory between) rfl
      obtain ⟨stage, advanced, steps, ends⟩ := goesOn
      refine ⟨stage, advanced, by simpa only [advance, drained] using steps, fun events some => ?_⟩
      exact ends events (by omega)
  | atOnce settled _ ih =>
      obtain ⟨enough, runs⟩ := ih final
      refine ⟨enough, fun patience more session rests same => ?_⟩
      have goesOn := runs patience more session rests same
      rw [← rests.batchSize] at settled
      simpa only [advance, Loader.load_atOnce _ settled] using goesOn
  | @loaded history between _ context request next _ _ asks fits drains _ ih =>
      obtain ⟨calls, drained⟩ := drains
      obtain ⟨enough, runs⟩ := ih final
      refine ⟨max calls enough + 1, fun patience more session rests same => ?_⟩
      subst same
      obtain ⟨resumed, rested, there, wakes⟩ :=
        @run_waiting α store settings patience calls session between context request next _ rests
          drained (by omega)
      obtain ⟨stage, advanced, steps, ends⟩ := runs patience (by omega) resumed rested there
      have waits := session.loader.load_waiting context asks (rests.batchSize ▸ fits)
      refine ⟨_, _, by rw [advance, waits], fun events some now => ?_⟩
      obtain ⟨events, rfl⟩ : ∃ fewer, events = fewer + 1 := ⟨events - 1, by omega⟩
      obtain ⟨loader, ended⟩ := ends events (by omega) (now + settings.batchWindow)
      exact ⟨loader, (wakes steps events now).trans ended⟩

theorem ends {fetch : Fetch α} {result : α} {session : Session} {calls : History}
    (rests : session.Rests settings.batchSize)
    (reaches : fetch.Reaches store settings.batchSize session.history (session.history ++ calls)
      (.done result)) : fetch.Ends store settings session result calls := by
  obtain ⟨enough, runs⟩ := reaches.run
  refine ⟨enough + 1, fun patience more => ?_⟩
  obtain ⟨events, rfl⟩ : ∃ fewer, patience = fewer + 1 := ⟨patience - 1, by omega⟩
  obtain ⟨stage, advanced, steps, ended⟩ := runs (events + 1) (by omega) session rests rfl
  obtain ⟨loader, ended⟩ := ended events (by omega) 0
  refine ⟨loader, ?_⟩
  have started : Schedule.nextEvent settings.batchWindow
      (.start [Stage.ofJob ⟨0, fetch⟩] session) = some (.start 0) := by
    simp only [Schedule.nextEvent, Schedule.fireTime?, Schedule.start, rests.unarmed]
    rfl
  have advances : Stage.advanceReady store (events + 1) (Stage.startingAt 0)
      [Stage.ofJob ⟨0, fetch⟩] session = (.finished [stage], advanced) := by
    simp [Stage.advanceReady, Stage.startingAt, Stage.ofJob, steps, Outcome.map]
  rw [Session.run, Session.finish, List.map_singleton, Schedule.run, started]
  simp only [Schedule.start, advances, Schedule.fireTime?, rests.unarmed]
  exact ended

end Reaches

end Fetch

end DocGraph
