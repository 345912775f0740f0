import DocGraph.Proofs.Fetch.Backing
import Mathlib.Data.List.Forall2

namespace DocGraph

open Json

/-- A stage to which a supply has led a fetch; a stage that waits stands for a caller. -/
def Stage.Stands {α : Type} (supply : Supply) (callers : List Caller) (origin : Fetch α) :
    Stage α → Prop
  | sleeping _ fetch => origin.Leads supply fetch
  | waiting ticket next => ∃ caller ∈ callers, caller.receipt = .waiting ticket ∧
      origin.Leads supply (.load caller.context caller.request next)
  | ended result => origin.Leads supply (.done result)

theorem Stage.Stands.mono {α : Type} {supply larger : Supply} {callers later : List Caller}
    {origin : Fetch α} {stage : Stage α} (stands : stage.Stands supply callers origin)
    (within : supply.Within larger) (kept : callers ⊆ later) :
    stage.Stands larger later origin := by
  cases stage with
  | sleeping _ fetch => exact Fetch.Leads.mono stands within
  | ended result => exact Fetch.Leads.mono stands within
  | waiting ticket next =>
      obtain ⟨caller, arrived, receipt, led⟩ := stands
      exact ⟨caller, kept arrived, receipt, led.mono within⟩

theorem Session.Grows.stands {α : Type} {store : Store} {batchSize : Nat}
    {session after : Session} {callers later : List Caller} {origin : Fetch α} {stage : Stage α}
    (grows : session.Grows after store batchSize callers later)
    (stands : stage.Stands (store.supply batchSize session.history) callers origin) :
    stage.Stands (store.supply batchSize after.history) later origin :=
  stands.mono (Store.supply_within grows.history) grows.callers.subset

namespace Fetch

variable {α : Type} {store : Store} {batchSize patience : Nat} {callers : List Caller}
  {origin : Fetch α}

/-- A fetch goes on by what the store gives, until it waits or is done. -/
theorem stands_of_advance {fetch : Fetch α} {session after : Session}
    {outcome : Outcome (Stage α)} (backed : session.Backed store batchSize callers)
    (led : origin.Leads (store.supply batchSize session.history) fetch)
    (advanced : fetch.advance store patience session = (outcome, after)) :
    session.Attains after store batchSize callers outcome fun supply later stage =>
      stage.Stands supply later origin := by
  induction fetch generalizing session callers with
  | done result =>
      cases advanced
      exact backed.grows.finished led
  | query asked next ih =>
      have grows := backed.asked [asked]
      have onward : ∀ reply : Except StoreError StorePage,
          (∀ page, reply = .ok page → store session.history asked = .page page) →
            origin.Leads (store.supply batchSize (session.history ++ [asked])) (next reply) := by
        intro reply replied
        refine (led.mono (Store.supply_within grows.history)).trans (.query ?_ .here)
        exact fun page same => Store.made_now session.history (replied page same)
      simp only [advance] at advanced
      split at advanced
      · next page replied =>
          have led := onward (.ok page) fun _ same => by cases same; exact replied
          exact grows.onward (ih _ grows.backed led advanced)
      · next error _ =>
          have led := onward (.error error) fun _ same => by cases same
          exact grows.onward (ih _ grows.backed led advanced)
      · cases advanced
        exact grows.aborted
  | drain asked next ih =>
      have grown := store.drain_grows patience (.start asked) session.history
      simp only [advance] at advanced
      split at advanced
      · next result history drained =>
          rw [drained] at grown
          have grows := backed.withHistory grown
          have handed : (store.supply batchSize history).rows asked result := by
            rintro rows rfl
            exact Store.handed_of_drain drained ⟨none, rfl⟩
              fun _ member => absurd member List.not_mem_nil
          have led := (led.mono (Store.supply_within grown)).trans (.drain handed .here)
          exact grows.onward (ih _ grows.backed led advanced)
      · next history drained =>
          cases advanced
          rw [drained] at grown
          exact (backed.withHistory grown).aborted
      · next history drained =>
          cases advanced
          rw [drained] at grown
          exact (backed.withHistory grown).unfinished
  | load context request next ih =>
      obtain ⟨run, stands, rfl⟩ := backed
      simp only [advance] at advanced
      rcases stands.load context request with
        ⟨reply, settled, answered⟩ | ⟨waiter, loader, waiting, stands, arrived⟩
      · rw [answered] at advanced
        exact ih _ ⟨run, stands, rfl⟩ (led.trans (.load (.inl settled) .here)) advanced
      · rw [waiting] at advanced
        cases advanced
        have grows : session.Grows { session with loader } store batchSize run.callers
            (run.callers ++ [⟨context, request, .waiting waiter.ticket⟩]) :=
          ⟨List.prefix_refl _, List.prefix_append _ _, _, stands, arrived⟩
        exact grows.finished
          ⟨_, List.mem_append_right _ (List.mem_singleton_self _), rfl, led⟩

end Fetch

namespace Stage

variable {α : Type} {store : Store} {batchSize patience : Nat} {callers : List Caller}
  {fetches : List (Fetch α)} {stages : List (Stage α)}

/-- A stage to which a supply has led a fetch, and that only goes on where it leads. -/
structure Ready (ready : Stage α → Option (Fetch α)) (supply : Supply) (callers : List Caller)
    (origin : Fetch α) (stage : Stage α) : Prop where
  stands : stage.Stands supply callers origin
  leads : ∀ fetch, ready stage = some fetch → origin.Leads supply fetch

theorem Ready.later {ready : Stage α → Option (Fetch α)} {session after : Session}
    {more : List Caller} {origin : Fetch α} {stage : Stage α}
    (first : Ready ready (store.supply batchSize session.history) callers origin stage)
    (grows : session.Grows after store batchSize callers more) :
    Ready ready (store.supply batchSize after.history) more origin stage :=
  ⟨grows.stands first.stands, fun fetch allowed =>
    (first.leads fetch allowed).mono (Store.supply_within grows.history)⟩

theorem stands_of_advanceReady {ready : Stage α → Option (Fetch α)} {session after : Session}
    {outcome : Outcome (List (Stage α))} (backed : session.Backed store batchSize callers)
    (stand : List.Forall₂ (Ready ready (store.supply batchSize session.history) callers)
      fetches stages)
    (advanced : advanceReady store patience ready stages session = (outcome, after)) :
    session.Attains after store batchSize callers outcome fun supply later others =>
      List.Forall₂ (Stands supply later) fetches others := by
  induction stages generalizing fetches session callers outcome with
  | nil =>
      cases stand
      cases advanced
      exact backed.grows.finished .nil
  | cons stage rest ih =>
      cases stand with
      | @cons origin _ origins _ first others =>
      have onward : ∀ {stage : Stage α} {between : Session} {more : List Caller},
          session.Grows between store batchSize callers more →
          stage.Stands (store.supply batchSize between.history) more origin →
          ((advanceReady store patience ready rest between).1.map (stage :: ·),
            (advanceReady store patience ready rest between).2) = (outcome, after) →
          session.Attains after store batchSize callers outcome fun supply later others =>
            List.Forall₂ (Stands supply later) (origin :: origins) others := by
        intro stage between more grows stood advanced
        cases advance : advanceReady store patience ready rest between with
        | mk outcomes last =>
            rw [advance] at advanced
            cases advanced
            obtain ⟨later, further, stand⟩ :=
              ih grows.backed (others.imp fun _ _ ready => ready.later grows) advance
            have grown := grows.trans further
            cases outcomes with
            | finished results => exact grown.finished (.cons (further.stands stood) (stand _ rfl))
            | aborted => exact grown.aborted
            | unfinished => exact grown.unfinished
      cases allowed : ready stage with
      | none =>
          simp only [advanceReady, allowed] at advanced
          exact onward backed.grows first.stands advanced
      | some fetch =>
          simp only [advanceReady, allowed] at advanced
          cases stepped : fetch.advance store patience session with
          | mk reached between =>
              rw [stepped] at advanced
              obtain ⟨more, grows, stands⟩ :=
                Fetch.stands_of_advance backed (first.leads fetch allowed) stepped
              cases reached with
              | finished stage => exact onward grows (stands stage rfl) advanced
              | aborted =>
                  cases advanced
                  exact grows.aborted
              | unfinished =>
                  cases advanced
                  exact grows.unfinished

theorem ready_startingAt {supply : Supply} {now : Nat} {origin : Fetch α} {stage : Stage α}
    (stands : stage.Stands supply callers origin) :
    Ready (startingAt now) supply callers origin stage := by
  refine ⟨stands, fun fetch ready => ?_⟩
  cases stage with
  | sleeping start rest =>
      simp only [startingAt] at ready
      split at ready
      · cases ready
        exact stands
      · cases ready
  | waiting => cases ready
  | ended => cases ready

theorem ready_answeredBy {history : History} {run : LoaderRun} {loader : Loader}
    {answers : List Answer} {origin : Fetch α} {stage : Stage α}
    (run_stands : run.StandsFor store batchSize history loader)
    (given : ∀ answer ∈ answers, answer ∈ run.answers)
    (stands : stage.Stands (store.supply batchSize history) run.callers origin) :
    Ready (answeredBy answers) (store.supply batchSize history) run.callers origin stage := by
  refine ⟨stands, fun fetch ready => ?_⟩
  cases stage with
  | sleeping => cases ready
  | ended => cases ready
  | waiting ticket next =>
      obtain ⟨caller, arrived, receipt, led⟩ := stands
      obtain ⟨answer, found, rfl⟩ := Option.map_eq_some_iff.mp ready
      obtain rfl : answer.waiter.ticket = ticket := by simpa using List.find?_some found
      have answered := run_stands.answered (given answer (List.mem_of_find?_eq_some found))
        arrived receipt
      exact led.trans (.load (.inr answered) .here)

theorem grows_of_fire {session : Session} {outcome : Outcome (List Answer × Loader)}
    {history : History} (backed : session.Backed store batchSize callers)
    (armed : session.loader.timerArmed = true)
    (settled : session.loader.fire.settle store patience session.history [] =
      (outcome, history)) :
    session.Grows { session with history } store batchSize callers callers := by
  obtain ⟨run, runs, same⟩ := backed
  obtain ⟨fired, _⟩ := runs.fire armed
  obtain ⟨grown, _⟩ := fired.settle (fun _ member => absurd member List.not_mem_nil) settled
  exact Session.Backed.withHistory ⟨run, runs, same⟩ grown

/-- Once a window has fired and its flights have landed, a stage that waits goes on by an answer
that came from the store. -/
theorem ready_of_fire {session : Session} {answers : List Answer} {loader : Loader}
    {history : History} (backed : session.Backed store batchSize callers)
    (armed : session.loader.timerArmed = true)
    (settled : session.loader.fire.settle store patience session.history [] =
      (.finished (answers, loader), history)) :
    ∃ later, session.Grows ⟨loader, history⟩ store batchSize callers later ∧
      ∀ {origin : Fetch α} {stage : Stage α},
        stage.Stands (store.supply batchSize history) later origin →
          Ready (answeredBy answers) (store.supply batchSize history) later origin stage := by
  obtain ⟨run, runs, rfl⟩ := backed
  obtain ⟨fired, arrived⟩ := runs.fire armed
  obtain ⟨grown, settles⟩ := fired.settle (fun _ member => absurd member List.not_mem_nil) settled
  obtain ⟨next, nextRuns, kept, given⟩ := settles answers loader rfl
  have same := kept.trans arrived
  exact ⟨next.callers, ⟨grown, same ▸ List.prefix_refl _, next, nextRuns, rfl⟩,
    ready_answeredBy nextRuns given⟩

end Stage

namespace Schedule

variable {α : Type} {store : Store} {batchSize batchWindow patience : Nat}
  {fetches : List (Fetch α)} {callers : List Caller}

theorem leads_of_results {supply : Supply} {stages : List (Stage α)} {results : List α}
    (stand : List.Forall₂ (Stage.Stands supply callers) fetches stages)
    (ended : stages.mapM Stage.result? = some results) :
    List.Forall₂ (fun fetch result => fetch.Leads supply (.done result)) fetches results := by
  induction stand generalizing results with
  | nil =>
      cases ended
      exact .nil
  | @cons origin stage origins rest stands _ ih =>
      simp only [List.mapM_cons, Option.bind_eq_bind, Option.bind_eq_some_iff] at ended
      obtain ⟨result, own, others, ended, same⟩ := ended
      cases same
      cases stage with
      | sleeping => contradiction
      | waiting => contradiction
      | ended last =>
          cases own
          exact .cons stands (ih ended)

theorem armed_of_fire {schedule : Schedule α} {time : Nat}
    (next : schedule.nextEvent batchWindow = some (.fire time)) :
    schedule.session.loader.timerArmed = true := by
  cases armed : schedule.session.loader.timerArmed with
  | true => rfl
  | false =>
      simp only [nextEvent, fireTime?, armed, Bool.false_eq_true, if_false] at next
      generalize (schedule.stages.filterMap Stage.start?).min? = starts at next
      cases starts <;> cases next

/-- No event takes a stage where the store does not lead its fetch. -/
theorem leads_of_run {events : Nat} {schedule : Schedule α} {outcome : Outcome (List α)}
    {after : Session} (backed : schedule.session.Backed store batchSize callers)
    (stand : List.Forall₂ (Stage.Stands (store.supply batchSize schedule.session.history) callers)
      fetches schedule.stages)
    (ran : schedule.run store batchWindow patience events = (outcome, after)) :
    schedule.session.Attains after store batchSize callers outcome fun supply _ results =>
      List.Forall₂ (fun fetch result => fetch.Leads supply (.done result)) fetches results := by
  induction events generalizing schedule callers with
  | zero =>
      cases ran
      exact backed.grows.unfinished
  | succ events ih =>
      simp only [run] at ran
      split at ran
      · split at ran
        · next results ended =>
            cases ran
            exact backed.grows.finished (leads_of_results stand ended)
        · cases ran
          exact backed.grows.unfinished
      · next time _ =>
          have ready : List.Forall₂ (Stage.Ready (Stage.startingAt time)
              (store.supply batchSize schedule.session.history) callers) fetches schedule.stages :=
            stand.imp fun _ _ stands => Stage.ready_startingAt stands
          cases advanced : Stage.advanceReady store patience (Stage.startingAt time)
              schedule.stages schedule.session with
          | mk reached between =>
              rw [advanced] at ran
              obtain ⟨more, grows, stands⟩ := Stage.stands_of_advanceReady backed ready advanced
              cases reached with
              | finished stages => exact grows.onward (ih grows.backed (stands stages rfl) ran)
              | aborted =>
                  cases ran
                  exact grows.aborted
              | unfinished =>
                  cases ran
                  exact grows.unfinished
      · next time fires =>
          cases settled : schedule.session.loader.fire.settle store patience
              schedule.session.history [] with
          | mk landed history =>
              rw [settled] at ran
              have stays := Stage.grows_of_fire backed (armed_of_fire fires) settled
              cases landed with
              | aborted =>
                  cases ran
                  exact stays.aborted
              | unfinished =>
                  cases ran
                  exact stays.unfinished
              | finished pair =>
                  obtain ⟨answers, loader⟩ := pair
                  obtain ⟨more, fired, answered⟩ :=
                    Stage.ready_of_fire backed (armed_of_fire fires) settled
                  have ready : List.Forall₂ (Stage.Ready (Stage.answeredBy answers)
                      (store.supply batchSize history) more) fetches schedule.stages :=
                    stand.imp fun _ _ stands => answered (fired.stands stands)
                  simp only at ran
                  cases advanced : Stage.advanceReady store patience (Stage.answeredBy answers)
                      schedule.stages ⟨loader, history⟩ with
                  | mk reached between =>
                      rw [advanced] at ran
                      obtain ⟨_, further, stands⟩ :=
                        Stage.stands_of_advanceReady fired.backed ready advanced
                      have grows := fired.trans further
                      cases reached with
                      | finished stages =>
                          exact grows.onward (ih grows.backed (stands stages rfl) ran)
                      | aborted =>
                          cases ran
                          exact grows.aborted
                      | unfinished =>
                          cases ran
                          exact grows.unfinished

end Schedule

namespace Session

variable {store : Store} {settings : LoaderSettings} {session after : Session} {patience : Nat}

/-- Where sessions come to over a store: by running jobs, however that ends, and by other
queries that are made between runs. -/
inductive Reached (store : Store) (settings : LoaderSettings) : Session → Prop
  | new : Reached store settings (Session.new settings)
  | run {α : Type} {session after : Session} {jobs : List (Job α)} {patience : Nat}
      {outcome : Outcome (List α)} (before : Reached store settings session)
      (ran : session.run store settings patience jobs = (outcome, after)) :
      Reached store settings after
  | asked {session : Session} (before : Reached store settings session) (queries : History) :
      Reached store settings { session with history := session.history ++ queries }

theorem leads_of_run_backed {α : Type} {jobs : List (Job α)} {outcome : Outcome (List α)}
    {callers : List Caller} (backed : session.Backed store settings.batchSize callers)
    (ran : session.run store settings patience jobs = (outcome, after)) :
    session.Attains after store settings.batchSize callers outcome fun supply _ results =>
      List.Forall₂ (fun job result => job.fetch.Leads supply (.done result)) jobs results := by
  have stand : List.Forall₂ (Stage.Stands (store.supply settings.batchSize session.history)
      callers) (jobs.map (·.fetch)) (jobs.map Stage.ofJob) := by
    rw [List.forall₂_map_left_iff, List.forall₂_map_right_iff]
    exact List.forall₂_same.mpr fun job _ => .here
  obtain ⟨later, grows, leads⟩ := @Schedule.leads_of_run α store settings.batchSize
    settings.batchWindow patience _ callers patience (.start _ session) outcome after backed
    stand ran
  refine ⟨later, grows, fun results same => ?_⟩
  simpa only [List.forall₂_map_left_iff] using leads results same

theorem Reached.backed (reached : Reached store settings session) :
    ∃ callers, session.Backed store settings.batchSize callers := by
  induction reached with
  | new => exact ⟨[], backed_new store settings⟩
  | run _ ran ih =>
      obtain ⟨callers, backed⟩ := ih
      obtain ⟨later, grows, _⟩ := leads_of_run_backed backed ran
      exact ⟨later, grows.backed⟩
  | asked _ queries ih =>
      obtain ⟨callers, backed⟩ := ih
      exact ⟨callers, (backed.asked queries).backed⟩

/-- What the store gave until the end of a run leads each of its jobs to its result. -/
theorem Reached.leads_of_run {α : Type} {jobs : List (Job α)} {results : List α}
    (reached : Reached store settings session)
    (ran : session.run store settings patience jobs = (.finished results, after)) :
    List.Forall₂ (fun job result => job.fetch.Leads
      (store.supply settings.batchSize after.history) (.done result)) jobs results := by
  obtain ⟨callers, backed⟩ := reached.backed
  obtain ⟨_, _, leads⟩ := leads_of_run_backed backed ran
  exact leads results rfl

theorem exists_result {α : Type} {leads : Job α → α → Prop} {jobs : List (Job α)} {job : Job α}
    {results : List α} {place : Nat} (led : List.Forall₂ leads jobs results)
    (here : jobs[place]? = some job) :
    ∃ result, results[place]? = some result ∧ leads job result := by
  obtain ⟨inJobs, isJob⟩ := List.getElem?_eq_some_iff.mp here
  have inResults : place < results.length := led.length_eq ▸ inJobs
  have own := led.get inJobs inResults
  simp only [List.get_eq_getElem, isJob] at own
  exact ⟨results[place], List.getElem?_eq_getElem inResults, own⟩

/-- Every job of a run that is finished has a result, to which the store led its fetch. -/
theorem Reached.leads_of_job {α : Type} {jobs : List (Job α)} {job : Job α} {results : List α}
    {place : Nat} (reached : Reached store settings session)
    (ran : session.run store settings patience jobs = (.finished results, after))
    (here : jobs[place]? = some job) :
    ∃ result, results[place]? = some result ∧
      job.fetch.Leads (store.supply settings.batchSize after.history) (.done result) :=
  exists_result (reached.leads_of_run ran) here

end Session

end DocGraph
