import DocGraph.Proofs.Fetch.Company
import DocGraph.Proofs.Fetch.Grounded
import DocGraph.Proofs.Store.Holding

/-!
# Runs that end

Over a store that holds documents every run ends, whichever jobs it has. No event takes a stage
back, and each takes one further or closes a window that nobody waits for any more. Where a job
comes to, it was led by batches that found what they asked for.
-/

namespace DocGraph

open Json

/-- What a load gets of a store that holds documents: the rows that a batch for all of it
found. -/
inductive LoadRequest.FoundFrom (request : LoadRequest) (documents : Documents) : LoadReply → Prop
  | rows {batch : Batch} {rows : List Value} (location : batch.location = request.location)
      (ids : ∀ id ∈ request.ids, id ∈ batch.ids)
      (columns : ∀ column ∈ request.columns, column ∈ batch.columns)
      (found : batch.FoundIn documents rows) :
      FoundFrom request documents (.ok (Batch.rowsFor rows request.ids))

/-- What documents promise of a store that holds them. Nothing is promised of the queries that
are made without the loader. -/
def Documents.supply (documents : Documents) (batchSize : Nat) : Supply where
  page _ _ := True
  rows _ _ := True
  load _ request reply := request.AtOnce batchSize reply ∨ request.FoundFrom documents reply

namespace Stage

variable {α : Type}

/-- Where a stage may come to when it goes on. -/
inductive Further : Stage α → Stage α → Prop
  | started {start : Nat} {fetch : Fetch α} {later : Stage α} (of : later.Of fetch)
      (awake : later.start? = none) : Further later (.sleeping start fetch)
  | answered {ticket : Nat} {next : LoadReply → Fetch α} {later : Stage α} (reply : LoadReply)
      (of : later.Of (next reply)) (awake : later.start? = none) :
      Further later (.waiting ticket next)

/-- Some of the stages went further, and none went back. -/
inductive Later : List (Stage α) → List (Stage α) → Prop
  | first {first stage : Stage α} {rest : List (Stage α)} (further : first.Further stage) :
      Later (first :: rest) (stage :: rest)
  | others {stage : Stage α} {others rest : List (Stage α)} (later : Later others rest) :
      Later (stage :: others) (stage :: rest)
  | both {first stage : Stage α} {others rest : List (Stage α)} (further : first.Further stage)
      (later : Later others rest) : Later (first :: others) (stage :: rest)

theorem acc_ended (result : α) : Acc Further (.ended result) := ⟨_, nofun⟩

theorem acc_of (fetch : Fetch α) {stage : Stage α} (of : stage.Of fetch)
    (awake : stage.start? = none) : Acc Further stage := by
  induction fetch generalizing stage with
  | done result =>
      cases stage with
      | sleeping => cases awake
      | ended result => exact acc_ended result
      | waiting ticket next =>
          obtain ⟨_, _, visits⟩ := of
          cases visits
  | query asked next ih =>
      cases stage with
      | sleeping => cases awake
      | ended result => exact acc_ended result
      | waiting ticket later =>
          obtain ⟨context, request, visits⟩ := of
          cases visits with
          | query reply rest => exact ih reply ⟨context, request, rest⟩ awake
  | drain asked next ih =>
      cases stage with
      | sleeping => cases awake
      | ended result => exact acc_ended result
      | waiting ticket later =>
          obtain ⟨context, request, visits⟩ := of
          cases visits with
          | drain reply rest => exact ih reply ⟨context, request, rest⟩ awake
  | load context request next ih =>
      cases stage with
      | sleeping => cases awake
      | ended result => exact acc_ended result
      | waiting ticket later =>
          obtain ⟨context, request, visits⟩ := of
          cases visits with
          | here =>
              refine ⟨_, fun stage further => ?_⟩
              cases further with
              | answered reply of awake => exact ih reply of awake
          | load reply rest => exact ih reply ⟨context, request, rest⟩ awake

/-- No stage goes further for ever. -/
theorem acc_further (stage : Stage α) : Acc Further stage := by
  refine ⟨_, fun later further => ?_⟩
  cases further with
  | @started _ fetch _ of awake => exact acc_of fetch of awake
  | @answered _ next _ reply of awake => exact acc_of (next reply) of awake

theorem acc_later (stages : List (Stage α)) : Acc Later stages := by
  induction stages with
  | nil => exact ⟨_, nofun⟩
  | cons stage rest ih =>
      induction acc_further stage generalizing rest with
      | intro stage _ further_ih =>
      induction ih with
      | intro rest before rest_ih =>
      refine ⟨_, fun stages later => ?_⟩
      cases later with
      | first further => exact further_ih _ further rest ⟨_, before⟩
      | others later => exact rest_ih _ later
      | both further later => exact further_ih _ further _ (before _ later)

end Stage

namespace Loader

variable {store : Store} {documents : Documents} {batchSize : Nat} {loader : Loader}

/-- The callers whose loads wait. -/
def callers (loader : Loader) : List Caller :=
  loader.pendingWaiters.map fun waiter => ⟨waiter.context, waiter.request, .waiting waiter.ticket⟩

theorem mem_callers {caller : Caller} {ticket : Nat} (receipt : caller.receipt = .waiting ticket) :
    caller ∈ loader.callers ↔ ⟨ticket, caller.context, caller.request⟩ ∈ loader.pendingWaiters := by
  obtain ⟨context, request, _⟩ := caller
  obtain rfl := receipt
  constructor
  · intro member
    obtain ⟨waiter, waits, same⟩ := List.mem_map.mp member
    cases same
    exact waits
  · exact fun waits => List.mem_map.mpr ⟨_, waits, rfl⟩

theorem callers_subset {after : Loader}
    (kept : loader.pendingWaiters ⊆ after.pendingWaiters) : loader.callers ⊆ after.callers :=
  List.map_subset _ kept

/-- Over a store that holds documents all flights land, and each load gets what its batch
found. -/
theorem settle_of_holds (holds : store.Holds documents) (history : History)
    (closed : ∀ flight ∈ loader.flights, ∃ window bucket, bucket.Merged ∧
      flight = Flight.start window bucket) :
    ∃ enough given later, (∀ patience, enough ≤ patience → ∀ answers,
        loader.settle store patience history answers =
          (.finished (answers ++ given, { loader with flights := [] }), later)) ∧
      given.map (·.waiter) = loader.flyingWaiters ∧
      ∀ answer ∈ given, answer.waiter.request.FoundFrom documents answer.reply := by
  generalize flights : loader.flights = flying at closed
  induction flying generalizing loader history with
  | nil =>
      refine ⟨1, [], history, fun patience more answers => ?_, by simp [flyingWaiters, flights],
        nofun⟩
      obtain ⟨patience, rfl⟩ : ∃ fewer, patience = fewer + 1 := ⟨patience - 1, by omega⟩
      obtain ⟨_, _, _, _, _, _⟩ := loader
      obtain rfl := flights
      simp [settle]
  | cons flight others ih =>
      obtain ⟨⟨window, bucket, merged, rfl⟩, rest⟩ := List.forall_mem_cons.mp closed
      obtain ⟨rows, between, ⟨calls, drained⟩, found⟩ :=
        holds.finds history bucket.context bucket.batch
      obtain ⟨spent, _, first⟩ := settle_first flights drained
      have onward : ({ loader with flights := others } : Loader).flights = others := rfl
      obtain ⟨enough, given, later, settles, waiters, answered⟩ := ih between onward rest
      refine ⟨enough + spent, bucket.answers (.ok rows) ++ given, later,
        fun patience more answers => ?_, ?_, ?_⟩
      · obtain ⟨patience, rfl⟩ : ∃ fewer, patience = fewer + spent := ⟨patience - spent, by omega⟩
        rw [first, settles patience (by omega), List.append_assoc]
        rfl
      · rw [List.map_append, Bucket.answers_waiters, waiters]
        simp [flyingWaiters, flights, Flight.start]
      · intro answer member
        rcases List.mem_append.mp member with own | other
        · obtain ⟨waiter, joined, rfl⟩ := List.mem_map.mp own
          exact .rows (merged.location_eq joined)
            (fun id asked => (merged.ids id).mpr ⟨waiter, joined, asked⟩)
            (fun column asked => (merged.columns column).mpr ⟨waiter, joined, asked⟩) found
        · exact answered answer other

/-- When a window fires over such a store, every load that waits gets what its batch found. -/
theorem Grounded.fire_of_holds (grounded : loader.Grounded batchSize)
    (holds : store.Holds documents) (history : History) :
    ∃ enough given later, (∀ patience, enough ≤ patience →
        loader.fire.settle store patience history [] =
          (.finished (given, { loader.fire with flights := [] }), later)) ∧
      given.map (·.waiter) = loader.pendingWaiters ∧
      ∀ answer ∈ given, answer.waiter.request.FoundFrom documents answer.reply := by
  have flights : loader.fire.flights = loader.pending.map (Flight.start loader.window) := by
    simp [fire, grounded.landed]
  have taken : ∀ flight ∈ loader.fire.flights, ∃ window bucket, bucket.Merged ∧
      flight = Flight.start window bucket := by
    rw [flights]
    intro flight member
    obtain ⟨bucket, waits, rfl⟩ := List.mem_map.mp member
    exact ⟨_, bucket, grounded.merged bucket waits, rfl⟩
  have flying : loader.fire.flyingWaiters = loader.pendingWaiters := by
    rw [fire_flyingWaiters]
    simp [flyingWaiters, grounded.landed]
  obtain ⟨enough, given, later, settles, waiters, found⟩ := settle_of_holds holds history taken
  refine ⟨enough, given, later, fun patience more => ?_, waiters.trans flying, found⟩
  rw [settles patience more, List.nil_append]

end Loader

section

variable {α : Type} {store : Store} {documents : Documents} {batchSize : Nat}

/-- With enough patience a fetch goes on until it waits or is done. -/
theorem Fetch.advance_of_holds (holds : store.Holds documents) {origin fetch : Fetch α}
    {session : Session} (size : session.loader.batchSize = batchSize)
    (led : origin.Leads (documents.supply batchSize) fetch) :
    ∃ enough stage after, (∀ patience, enough ≤ patience →
        fetch.advance store patience session = (.finished stage, after)) ∧
      stage.Stands (documents.supply batchSize) after.loader.callers origin ∧
      stage.start? = none ∧ session.loader.callers ⊆ after.loader.callers := by
  induction fetch generalizing session with
  | done result => exact ⟨0, .ended result, session, fun _ _ => rfl, led, rfl, fun _ => id⟩
  | query asked next ih =>
      have onward := fun reply =>
        @ih reply { session with history := session.history ++ [asked] } size
          (led.trans (.query trivial .here))
      cases replied : store session.history asked with
      | page page => simpa only [advance, replied] using onward (.ok page)
      | failed error => simpa only [advance, replied] using onward (.error error)
      | aborted => exact absurd replied (holds.answers session.history asked)
  | drain asked next ih =>
      obtain ⟨result, history, calls, drained⟩ := holds.ends session.history asked
      obtain ⟨enough, stage, after, advances, stands, awake, kept⟩ :=
        @ih result { session with history } size (led.trans (.drain trivial .here))
      refine ⟨max calls enough, stage, after, fun patience more => ?_, stands, awake, kept⟩
      have drained := Store.drain_mono drained (by omega : calls ≤ patience)
      simp only [advance, drained]
      exact advances patience (by omega)
  | load context request next ih =>
      rcases session.loader.load_cases context request with
        ⟨reply, settled, answered⟩ | ⟨_, _, waits⟩
      · rw [size] at settled
        simpa only [advance, answered] using ih reply size (led.trans (.load (.inl settled) .here))
      · have waiters := Loader.pendingWaiters_of_load waits
        refine ⟨0, _, _, fun _ _ => by simp only [advance, waits]; rfl, ?_, rfl, ?_⟩
        · refine ⟨⟨context, request, .waiting session.loader.accepted⟩, ?_, rfl, led⟩
          exact (Loader.mem_callers rfl).mpr (waiters.mem_iff.mpr (by simp))
        · exact Loader.callers_subset fun _ waiting => waiters.mem_iff.mpr (by simp [waiting])

namespace Stage

/-- When a stage is ready, it goes on where a supply leads it; otherwise it stays. -/
structure Prepared (ready : Stage α → Option (Fetch α)) (supply : Supply) (callers : List Caller)
    (origin : Fetch α) (stage : Stage α) : Prop where
  stays : ready stage = none → stage.Stands supply callers origin
  leads : ∀ fetch, ready stage = some fetch → origin.Leads supply fetch

theorem Ready.prepared {ready : Stage α → Option (Fetch α)} {supply : Supply}
    {callers : List Caller} {origin : Fetch α} {stage : Stage α}
    (held : Ready ready supply callers origin stage) :
    Prepared ready supply callers origin stage :=
  ⟨fun _ => held.stands, held.leads⟩

theorem Prepared.mono {ready : Stage α → Option (Fetch α)} {supply : Supply}
    {callers later : List Caller} {origin : Fetch α} {stage : Stage α}
    (prepared : Prepared ready supply callers origin stage) (kept : callers ⊆ later) :
    Prepared ready supply later origin stage :=
  ⟨fun unready => (prepared.stays unready).mono (.refl _) kept, prepared.leads⟩

/-- Who is ready goes further. -/
def Onward (ready : Stage α → Option (Fetch α)) : Prop :=
  ∀ (stage : Stage α) (fetch : Fetch α) (later : Stage α), ready stage = some fetch →
    later.Of fetch → later.start? = none → later.Further stage

theorem onward_startingAt (now : Nat) : Onward (@startingAt α now) := by
  intro stage fetch later ready of awake
  cases stage with
  | sleeping start rest =>
      simp only [startingAt] at ready
      split at ready
      · cases ready
        exact .started of awake
      · cases ready
  | waiting => cases ready
  | ended => cases ready

theorem onward_answeredBy (answers : List Answer) : Onward (@answeredBy α answers) := by
  intro stage fetch later ready of awake
  cases stage with
  | sleeping => cases ready
  | ended => cases ready
  | waiting ticket next =>
      obtain ⟨answer, _, rfl⟩ := Option.map_eq_some_iff.mp ready
      exact .answered answer.reply of awake

/-- Stages and the session after all who were ready have gone on: nobody was, or some went
further. -/
inductive Moves (ready : Stage α → Option (Fetch α)) (stages : List (Stage α)) (session : Session) :
    List (Stage α) → Session → Prop
  | idle (unready : ∀ stage ∈ stages, ready stage = none) :
      Moves ready stages session stages session
  | onward {others : List (Stage α)} {after : Session} (later : Later others stages) :
      Moves ready stages session others after

theorem advanceReady_of_holds (holds : store.Holds documents)
    {ready : Stage α → Option (Fetch α)} (onward : Onward ready) {fetches : List (Fetch α)}
    {stages : List (Stage α)} {session : Session} (grounded : session.loader.Grounded batchSize)
    (prepared : List.Forall₂
      (Prepared ready (documents.supply batchSize) session.loader.callers) fetches stages) :
    ∃ enough others after, (∀ patience, enough ≤ patience →
        advanceReady store patience ready stages session = (.finished others, after)) ∧
      List.Forall₂ (Stands (documents.supply batchSize) after.loader.callers) fetches others ∧
      Moves ready stages session others after ∧
      session.loader.callers ⊆ after.loader.callers := by
  induction stages generalizing fetches session with
  | nil =>
      cases prepared
      exact ⟨0, [], session, fun _ _ => rfl, .nil, .idle nofun, fun _ => id⟩
  | cons stage rest ih =>
      cases prepared with
      | @cons origin _ origins _ first others =>
      cases allowed : ready stage with
      | none =>
          obtain ⟨enough, later, after, advances, stand, moves, kept⟩ := ih grounded others
          refine ⟨enough, stage :: later, after, fun patience more => ?_,
            .cons ((first.stays allowed).mono (.refl _) kept) stand, ?_, kept⟩
          · simp only [advanceReady, allowed, advances patience more]
            rfl
          · cases moves with
            | idle unready => exact .idle (List.forall_mem_cons.mpr ⟨allowed, unready⟩)
            | onward later => exact .onward (.others later)
      | some fetch =>
          obtain ⟨most, next, between, steps, stands, awake, grown⟩ :=
            Fetch.advance_of_holds holds grounded.size (first.leads fetch allowed)
          have stepped := steps most (Nat.le_refl _)
          have further : next.Further stage :=
            onward stage fetch next allowed (Fetch.stage_of_advance .here stepped) awake
          obtain ⟨enough, later, after, advances, stand, moves, kept⟩ :=
            ih (Fetch.grounded_of_advance grounded stepped)
              (others.imp fun _ _ held => held.mono grown)
          refine ⟨max most enough, next :: later, after, fun patience more => ?_,
            .cons (stands.mono (.refl _) kept) stand, ?_, fun _ member => kept (grown member)⟩
          · simp only [advanceReady, allowed, steps patience (by omega),
              advances patience (by omega)]
            rfl
          · cases moves with
            | idle => exact .onward (.first further)
            | onward later => exact .onward (.both further later)

end Stage

/-- Once a window has fired, every stage that waits goes on with what was found for it. -/
theorem Stage.prepared_answeredBy {loader : Loader} {given : List Answer}
    {later : List Caller} {origin : Fetch α} {stage : Stage α}
    (grounded : loader.Grounded batchSize)
    (waiters : given.map (·.waiter) = loader.pendingWaiters)
    (found : ∀ answer ∈ given, answer.waiter.request.FoundFrom documents answer.reply)
    (stands : stage.Stands (documents.supply batchSize) loader.callers origin) :
    Prepared (answeredBy given) (documents.supply batchSize) later origin stage := by
  cases stage with
  | sleeping => exact ⟨fun _ => stands, nofun⟩
  | ended => exact ⟨fun _ => stands, nofun⟩
  | waiting ticket next =>
      obtain ⟨caller, arrived, receipt, led⟩ := stands
      have waits := (Loader.mem_callers receipt).mp arrived
      refine ⟨fun unready => ?_, fun fetch ready => ?_⟩
      · obtain ⟨answer, member, same⟩ := List.mem_map.mp (waiters ▸ waits)
        have missed := List.find?_eq_none.mp (Option.map_eq_none_iff.mp unready) answer member
        simp [same] at missed
      · obtain ⟨answer, sought, rfl⟩ := Option.map_eq_some_iff.mp ready
        have member := List.mem_of_find?_eq_some sought
        have ticket : answer.waiter.ticket = ticket := by simpa using List.find?_some sought
        have own : answer.waiter ∈ loader.pendingWaiters := waiters ▸ List.mem_map_of_mem member
        have same := List.inj_on_of_nodup_map grounded.apart own waits ticket
        have answered := found answer member
        rw [same] at answered
        exact led.trans (.load (.inr answered) .here)

namespace Schedule

/-- With enough patience a schedule ends, with the results that documents lead its fetches to. -/
def Concludes (schedule : Schedule α) (store : Store) (documents : Documents)
    (batchSize batchWindow : Nat) (fetches : List (Fetch α)) : Prop :=
  ∃ enough results after, (∀ patience events, enough ≤ patience → enough ≤ events →
      schedule.run store batchWindow patience events = (.finished results, after)) ∧
    List.Forall₂ (fun fetch result => fetch.Leads (documents.supply batchSize) (.done result))
      fetches results

/-- Grounded, with every stage where documents lead its fetch. -/
structure Stands (schedule : Schedule α) (documents : Documents) (batchSize : Nat)
    (fetches : List (Fetch α)) : Prop where
  grounded : schedule.session.loader.Grounded batchSize
  stages : List.Forall₂ (Stage.Stands (documents.supply batchSize) schedule.session.loader.callers)
    fetches schedule.stages

variable {schedule next : Schedule α} {batchWindow time : Nat} {fetches : List (Fetch α)}

theorem Concludes.step {enough : Nat} (rest : next.Concludes store documents batchSize batchWindow
      fetches)
    (steps : ∀ patience events, enough ≤ patience →
      schedule.run store batchWindow patience (events + 1) =
        next.run store batchWindow patience events) :
    schedule.Concludes store documents batchSize batchWindow fetches := by
  obtain ⟨most, results, after, runs, led⟩ := rest
  refine ⟨max enough (most + 1), results, after, fun patience events more some => ?_, led⟩
  obtain ⟨events, rfl⟩ : ∃ fewer, events = fewer + 1 := ⟨events - 1, by omega⟩
  rw [steps patience events (by omega)]
  exact runs patience events (by omega) (by omega)

theorem nextEvent_none (quiet : schedule.nextEvent batchWindow = none) :
    schedule.session.loader.timerArmed = false ∧
      ∀ stage ∈ schedule.stages, stage.start? = none := by
  unfold nextEvent at quiet
  split at quiet
  · cases quiet
  · cases quiet
  · cases quiet
  · next nobody closed =>
      refine ⟨?_, fun stage member => ?_⟩
      · simpa [fireTime?] using closed
      · rw [List.min?_eq_none_iff, List.filterMap_eq_nil_iff] at nobody
        exact nobody stage member

theorem nextEvent_start (starts : schedule.nextEvent batchWindow = some (.start time)) :
    ∃ stage ∈ schedule.stages, stage.start? = some time := by
  unfold nextEvent at starts
  split at starts
  · next start due earliest _ =>
      split at starts
      · cases starts
        exact List.mem_filterMap.mp (List.min?_mem earliest)
      · cases starts
  · next start earliest _ =>
      cases starts
      exact List.mem_filterMap.mp (List.min?_mem earliest)
  · cases starts
  · cases starts

theorem ended_of_awake {supply : Supply} {stages : List (Stage α)}
    (stand : List.Forall₂ (Stage.Stands supply []) fetches stages)
    (awake : ∀ stage ∈ stages, stage.start? = none) :
    ∃ results, stages.mapM Stage.result? = some results := by
  induction stand with
  | nil => exact ⟨[], rfl⟩
  | @cons _ stage _ rest stands _ ih =>
      obtain ⟨first, others⟩ := List.forall_mem_cons.mp awake
      obtain ⟨results, ended⟩ := ih others
      cases stage with
      | sleeping => cases first
      | ended result => exact ⟨result :: results, by simp [ended, Stage.result?]⟩
      | waiting =>
          obtain ⟨_, arrived, _⟩ := stands
          cases arrived

theorem concludes_of_quiet (stands : schedule.Stands documents batchSize fetches)
    (quiet : schedule.nextEvent batchWindow = none) :
    schedule.Concludes store documents batchSize batchWindow fetches := by
  obtain ⟨closed, awake⟩ := nextEvent_none quiet
  have nobody : schedule.session.loader.callers = [] := by
    have none : schedule.session.loader.pending = [] := by
      by_contra waiting
      rw [stands.grounded.armed.mpr waiting] at closed
      cases closed
    simp [Loader.callers, Loader.pendingWaiters, none]
  have stood := stands.stages
  rw [nobody] at stood
  obtain ⟨results, ended⟩ := ended_of_awake stood awake
  refine ⟨1, results, schedule.session, fun patience events _ some => ?_,
    leads_of_results stood ended⟩
  obtain ⟨events, rfl⟩ : ∃ fewer, events = fewer + 1 := ⟨events - 1, by omega⟩
  simp only [run, quiet, ended]

variable (holds : store.Holds documents)

include holds

/-- After a start, the schedule goes on with some stage further. -/
theorem concludes_of_start (stands : schedule.Stands documents batchSize fetches)
    (starts : schedule.nextEvent batchWindow = some (.start time))
    (onward : ∀ next : Schedule α, Stage.Later next.stages schedule.stages →
      next.Stands documents batchSize fetches →
      next.Concludes store documents batchSize batchWindow fetches) :
    schedule.Concludes store documents batchSize batchWindow fetches := by
  have prepared : List.Forall₂ (Stage.Prepared (Stage.startingAt time)
      (documents.supply batchSize) schedule.session.loader.callers) fetches schedule.stages :=
    stands.stages.imp fun _ _ stood => (Stage.ready_startingAt stood).prepared
  obtain ⟨enough, others, after, advances, stand, moves, _⟩ := Stage.advanceReady_of_holds holds
    (Stage.onward_startingAt time) stands.grounded prepared
  have grounded := Stage.grounded_of_advanceReady stands.grounded (advances enough (Nat.le_refl _))
  have later : Stage.Later others schedule.stages := by
    cases moves with
    | onward later => exact later
    | idle unready =>
        obtain ⟨stage, member, begins⟩ := nextEvent_start starts
        cases stage with
        | sleeping start fetch =>
            cases begins
            have ready := unready _ member
            simp [Stage.startingAt] at ready
        | waiting => cases begins
        | ended => cases begins
  have steps : ∀ patience events, enough ≤ patience →
      schedule.run store batchWindow patience (events + 1) = Schedule.run store batchWindow patience
        events ⟨time, schedule.fireTime? batchWindow, others, after⟩ := by
    intro patience events more
    simp only [run, starts, advances patience more]
  exact (onward _ later ⟨grounded, stand⟩).step steps

/-- After a window has fired, some stage is further, or nobody was waiting and the window is
closed. -/
theorem concludes_of_fire (stands : schedule.Stands documents batchSize fetches)
    (fires : schedule.nextEvent batchWindow = some (.fire time))
    (onward : ∀ next : Schedule α, Stage.Later next.stages schedule.stages →
      next.Stands documents batchSize fetches →
      next.Concludes store documents batchSize batchWindow fetches)
    (closed : ∀ next : Schedule α, next.stages = schedule.stages →
      next.session.loader.timerArmed = false → next.Stands documents batchSize fetches →
      next.Concludes store documents batchSize batchWindow fetches) :
    schedule.Concludes store documents batchSize batchWindow fetches := by
  obtain ⟨most, given, history, settles, waiters, found⟩ :=
    stands.grounded.fire_of_holds holds schedule.session.history
  let between : Session := ⟨{ schedule.session.loader.fire with flights := [] }, history⟩
  have idle : between.loader.Grounded batchSize :=
    Loader.grounded_of_idle stands.grounded.size rfl rfl rfl
  have prepared : List.Forall₂ (Stage.Prepared (Stage.answeredBy given)
      (documents.supply batchSize) between.loader.callers) fetches schedule.stages :=
    stands.stages.imp fun _ _ stood =>
      Stage.prepared_answeredBy stands.grounded waiters found stood
  obtain ⟨enough, others, after, advances, stand, moves, _⟩ := Stage.advanceReady_of_holds holds
    (Stage.onward_answeredBy given) idle prepared
  have grounded := Stage.grounded_of_advanceReady idle (advances enough (Nat.le_refl _))
  have steps : ∀ patience events, max most enough ≤ patience →
      schedule.run store batchWindow patience (events + 1) =
        Schedule.run store batchWindow patience events ⟨time, none, others, after⟩ := by
    intro patience events more
    have advanced := advances patience (by omega)
    simp only [between] at advanced
    simp only [run, fires, settles patience (by omega), advanced]
  cases moves with
  | onward later => exact (onward _ later ⟨grounded, stand⟩).step steps
  | idle => exact (closed ⟨time, none, _, between⟩ rfl rfl ⟨grounded, stand⟩).step steps

/-- Every schedule ends. -/
theorem concludes_of_stands (stands : schedule.Stands documents batchSize fetches) :
    schedule.Concludes store documents batchSize batchWindow fetches := by
  generalize same : schedule.stages = stages
  induction Stage.acc_later stages generalizing schedule with
  | intro stages _ ih =>
      subst same
      have onward : ∀ next : Schedule α, Stage.Later next.stages schedule.stages →
          next.Stands documents batchSize fetches →
          next.Concludes store documents batchSize batchWindow fetches :=
        fun _ later stands => ih _ later stands rfl
      have closed : ∀ next : Schedule α, next.stages = schedule.stages →
          next.session.loader.timerArmed = false → next.Stands documents batchSize fetches →
          next.Concludes store documents batchSize batchWindow fetches := by
        intro next same closed stands
        rw [← same] at onward
        match due : next.nextEvent batchWindow with
        | none => exact concludes_of_quiet stands due
        | some (.start time) => exact concludes_of_start holds stands due onward
        | some (.fire time) => cases closed.symm.trans (armed_of_fire due)
      match due : schedule.nextEvent batchWindow with
      | none => exact concludes_of_quiet stands due
      | some (.start time) => exact concludes_of_start holds stands due onward
      | some (.fire time) => exact concludes_of_fire holds stands due onward closed

end Schedule

end

/-- Over a store that holds documents, every run from where sessions come to ends with enough
patience, and the documents lead each job to its result. -/
theorem Session.Reached.run_of_holds {α : Type} {store : Store} {documents : Documents}
    {settings : LoaderSettings} {session : Session} (reached : session.Reached store settings)
    (holds : store.Holds documents) (jobs : List (Job α)) :
    ∃ enough results after, (∀ patience, enough ≤ patience →
        session.run store settings patience jobs = (.finished results, after)) ∧
      List.Forall₂ (fun job result => job.fetch.Leads (documents.supply settings.batchSize)
        (.done result)) jobs results := by
  have stand : List.Forall₂ (Stage.Stands (documents.supply settings.batchSize)
      session.loader.callers) (jobs.map (·.fetch)) (jobs.map Stage.ofJob) := by
    rw [List.forall₂_map_left_iff, List.forall₂_map_right_iff]
    exact List.forall₂_same.mpr fun job _ => .here
  have stands : (Schedule.start (jobs.map Stage.ofJob) session).Stands documents settings.batchSize
      (jobs.map (·.fetch)) := ⟨reached.grounded, stand⟩
  obtain ⟨enough, results, after, runs, led⟩ :=
    @Schedule.concludes_of_stands α store documents settings.batchSize _ settings.batchWindow _
      holds stands
  refine ⟨enough, results, after, fun patience more => runs patience patience more more, ?_⟩
  simpa only [List.forall₂_map_left_iff] using led

end DocGraph
