import DocGraph.Proofs.Fetch.Alone
import Mathlib.Data.List.Forall2

/-!
# Fetches in company

Side by side with others, a fetch may get any reply to any of its requests. What holds
wherever its replies may lead it holds of every run that it is part of.
-/

namespace DocGraph

open Json

namespace Fetch

variable {α β : Type}

/-- Some replies lead from a fetch to a later one. -/
inductive Visits : Fetch α → Fetch α → Prop
  | here {fetch : Fetch α} : Visits fetch fetch
  | query {asked : StoreQuery} {next : Except StoreError StorePage → Fetch α} {fetch : Fetch α}
      (reply : Except StoreError StorePage) (rest : Visits (next reply) fetch) :
      Visits (query asked next) fetch
  | drain {asked : StoreQuery} {next : Except StoreError (List Value) → Fetch α}
      {fetch : Fetch α} (reply : Except StoreError (List Value))
      (rest : Visits (next reply) fetch) : Visits (drain asked next) fetch
  | load {context : RequestContext} {request : LoadRequest} {next : LoadReply → Fetch α}
      {fetch : Fetch α} (reply : LoadReply) (rest : Visits (next reply) fetch) :
      Visits (load context request next) fetch

namespace Visits

theorem trans {first second third : Fetch α} (front : first.Visits second)
    (back : second.Visits third) : first.Visits third := by
  induction front with
  | here => exact back
  | query reply _ ih => exact .query reply (ih back)
  | drain reply _ ih => exact .drain reply (ih back)
  | load reply _ ih => exact .load reply (ih back)

theorem of_map {change : α → β} {fetch : Fetch α} {rest : Fetch β}
    (visits : (fetch.map change).Visits rest) :
    ∃ before, fetch.Visits before ∧ rest = before.map change := by
  induction fetch with
  | done result =>
      cases visits with
      | here => exact ⟨.done result, .here, rfl⟩
  | query asked next ih =>
      cases visits with
      | here => exact ⟨.query asked next, .here, rfl⟩
      | query reply onward =>
          obtain ⟨before, visited, same⟩ := ih reply onward
          exact ⟨before, .query reply visited, same⟩
  | drain asked next ih =>
      cases visits with
      | here => exact ⟨.drain asked next, .here, rfl⟩
      | drain reply onward =>
          obtain ⟨before, visited, same⟩ := ih reply onward
          exact ⟨before, .drain reply visited, same⟩
  | load context request next ih =>
      cases visits with
      | here => exact ⟨.load context request next, .here, rfl⟩
      | load reply onward =>
          obtain ⟨before, visited, same⟩ := ih reply onward
          exact ⟨before, .load reply visited, same⟩

end Visits

theorem Reaches.visits {store : Store} {batchSize : Nat} {history later : History}
    {fetch rest : Fetch α} (reaches : fetch.Reaches store batchSize history later rest) :
    fetch.Visits rest := by
  induction reaches with
  | here => exact .here
  | answered _ _ ih => exact .query _ ih
  | failed _ _ ih => exact .query _ ih
  | drained _ _ ih => exact .drain _ ih
  | atOnce _ _ ih => exact .load _ ih
  | loaded _ _ _ _ ih => exact .load _ ih

/-- A property of all fetches to which some replies lead. -/
def Always (holds : Fetch α → Prop) (fetch : Fetch α) : Prop :=
  ∀ rest, fetch.Visits rest → holds rest

namespace Always

variable {holds : Fetch α → Prop}

theorem done {result : α} (now : holds (done result)) : (Fetch.done result).Always holds := by
  intro rest visits
  cases visits with
  | here => exact now

theorem query {asked : StoreQuery} {next : Except StoreError StorePage → Fetch α}
    (now : holds (query asked next)) (onward : ∀ reply, (next reply).Always holds) :
    (Fetch.query asked next).Always holds := by
  intro rest visits
  cases visits with
  | here => exact now
  | query reply later => exact onward reply rest later

theorem drain {asked : StoreQuery} {next : Except StoreError (List Value) → Fetch α}
    (now : holds (drain asked next)) (onward : ∀ reply, (next reply).Always holds) :
    (Fetch.drain asked next).Always holds := by
  intro rest visits
  cases visits with
  | here => exact now
  | drain reply later => exact onward reply rest later

theorem load {context : RequestContext} {request : LoadRequest} {next : LoadReply → Fetch α}
    (now : holds (load context request next)) (onward : ∀ reply, (next reply).Always holds) :
    (Fetch.load context request next).Always holds := by
  intro rest visits
  cases visits with
  | here => exact now
  | load reply later => exact onward reply rest later

end Always

end Fetch

/-- A stage to which some replies have led a fetch. -/
def Stage.Of {α : Type} (fetch : Fetch α) : Stage α → Prop
  | sleeping _ rest => fetch.Visits rest
  | waiting _ next => ∃ context request, fetch.Visits (.load context request next)
  | ended result => fetch.Visits (.done result)

namespace Fetch

variable {α : Type} {store : Store} {patience : Nat}

theorem stage_of_advance {fetch origin : Fetch α} {session after : Session} {stage : Stage α}
    (visited : origin.Visits fetch)
    (advanced : fetch.advance store patience session = (.finished stage, after)) :
    Stage.Of origin stage := by
  induction fetch generalizing session with
  | done result =>
      cases advanced
      exact visited
  | query asked next ih =>
      simp only [advance] at advanced
      split at advanced
      · exact ih _ (visited.trans (.query _ .here)) advanced
      · exact ih _ (visited.trans (.query _ .here)) advanced
      · cases advanced
  | drain asked next ih =>
      simp only [advance] at advanced
      split at advanced
      · exact ih _ (visited.trans (.drain _ .here)) advanced
      · cases advanced
      · cases advanced
  | load context request next ih =>
      simp only [advance] at advanced
      split at advanced
      · exact ih _ (visited.trans (.load _ .here)) advanced
      · cases advanced
        exact ⟨context, request, visited⟩

end Fetch

namespace Stage

variable {α : Type} {store : Store} {patience : Nat} {fetches : List (Fetch α)}

theorem visits_of_startingAt {now : Nat} {stage : Stage α} {origin fetch : Fetch α}
    (stands : stage.Of origin) (ready : startingAt now stage = some fetch) :
    origin.Visits fetch := by
  cases stage with
  | sleeping start rest =>
      simp only [startingAt] at ready
      split at ready
      · cases ready
        exact stands
      · contradiction
  | waiting => contradiction
  | ended => contradiction

theorem visits_of_answeredBy {answers : List Answer} {stage : Stage α} {origin fetch : Fetch α}
    (stands : stage.Of origin) (ready : answeredBy answers stage = some fetch) :
    origin.Visits fetch := by
  cases stage with
  | sleeping => contradiction
  | waiting ticket next =>
      obtain ⟨context, request, visited⟩ := stands
      obtain ⟨answer, _, rfl⟩ := Option.map_eq_some_iff.mp ready
      exact visited.trans (.load _ .here)
  | ended => contradiction

/-- Readiness that only lets a stage go on to where replies lead. -/
def Leads (ready : Stage α → Option (Fetch α)) : Prop :=
  ∀ stage origin fetch, Stage.Of origin stage → ready stage = some fetch → origin.Visits fetch

theorem stages_of_advanceReady {ready : Stage α → Option (Fetch α)} {stages later : List (Stage α)}
    {session after : Session} (leads : Leads ready) (stand : List.Forall₂ Stage.Of fetches stages)
    (advanced : advanceReady store patience ready stages session = (.finished later, after)) :
    List.Forall₂ Stage.Of fetches later := by
  induction stand generalizing later session with
  | nil =>
      cases advanced
      exact .nil
  | @cons origin stage origins rest stands _ ih =>
      have onward : ∀ {first : Stage α} {between : Session}, Stage.Of origin first →
          ((advanceReady store patience ready rest between).1.map (first :: ·),
            (advanceReady store patience ready rest between).2) = (.finished later, after) →
          List.Forall₂ Stage.Of (origin :: origins) later := by
        intro first between stood advanced
        cases others : advanceReady store patience ready rest between with
        | mk outcome last =>
            rw [others] at advanced
            cases outcome with
            | finished others' =>
                cases advanced
                exact .cons stood (ih others)
            | aborted => cases advanced
            | unfinished => cases advanced
      cases allowed : ready stage with
      | none =>
          simp only [advanceReady, allowed] at advanced
          exact onward stands advanced
      | some fetch =>
          simp only [advanceReady, allowed] at advanced
          cases stepped : fetch.advance store patience session with
          | mk outcome between =>
              rw [stepped] at advanced
              cases outcome with
              | finished first =>
                  have visited := leads stage origin fetch stands allowed
                  exact onward (Fetch.stage_of_advance visited stepped) advanced
              | aborted => cases advanced
              | unfinished => cases advanced

end Stage

namespace Schedule

variable {α : Type} {store : Store} {batchWindow patience : Nat} {fetches : List (Fetch α)}

theorem visits_of_results {stages : List (Stage α)} {results : List α}
    (stand : List.Forall₂ Stage.Of fetches stages)
    (ended : stages.mapM Stage.result? = some results) :
    List.Forall₂ (fun fetch result => fetch.Visits (.done result)) fetches results := by
  induction stand generalizing results with
  | nil =>
      cases ended
      exact .nil
  | @cons origin stage origins rest stands _ ih =>
      simp only [List.mapM_cons, Option.bind_eq_bind, Option.bind_eq_some_iff] at ended
      obtain ⟨result, own, others, ended, same⟩ := ended
      cases same
      cases stage with
      | sleeping => contradiction
      | waiting => contradiction
      | ended last =>
          cases own
          exact .cons stands (ih ended)

theorem visits_of_run {events : Nat} {schedule : Schedule α} {results : List α} {after : Session}
    (stand : List.Forall₂ Stage.Of fetches schedule.stages)
    (ran : schedule.run store batchWindow patience events = (.finished results, after)) :
    List.Forall₂ (fun fetch result => fetch.Visits (.done result)) fetches results := by
  induction events generalizing schedule with
  | zero => cases ran
  | succ events ih =>
      simp only [run] at ran
      split at ran
      · split at ran
        · next results' ended =>
            cases ran
            exact visits_of_results stand ended
        · cases ran
      · split at ran
        · next stages session advanced =>
            refine ih ?_ ran
            refine Stage.stages_of_advanceReady ?_ stand advanced
            exact fun _ _ _ stands ready => Stage.visits_of_startingAt stands ready
        · cases ran
        · cases ran
      · split at ran
        · split at ran
          · next stages session advanced =>
              refine ih ?_ ran
              refine Stage.stages_of_advanceReady ?_ stand advanced
              exact fun _ _ _ stands ready => Stage.visits_of_answeredBy stands ready
          · cases ran
          · cases ran
        · cases ran
        · cases ran

end Schedule

/-- Every job of a run ends where some replies lead its fetch. -/
theorem Session.visits_of_run {α : Type} {store : Store} {settings : LoaderSettings}
    {patience : Nat} {jobs : List (Job α)} {session after : Session} {results : List α}
    (ran : session.run store settings patience jobs = (.finished results, after)) :
    List.Forall₂ (fun job result => job.fetch.Visits (.done result)) jobs results := by
  have stand : List.Forall₂ Stage.Of (jobs.map (·.fetch)) (jobs.map Stage.ofJob) := by
    rw [List.forall₂_map_left_iff, List.forall₂_map_right_iff]
    exact List.forall₂_same.mpr fun job _ => .here
  have visits := Schedule.visits_of_run stand ran
  rwa [List.forall₂_map_left_iff] at visits

end DocGraph
