import DocGraph.Proofs.Loader.Capacity
import DocGraph.Proofs.Loader.Contexts
import DocGraph.Proofs.Loader.Completion
import Mathlib.Data.List.Perm.Subperm
import Mathlib.Data.List.Sort

namespace DocGraph

namespace NameSet

variable {left right : NameSet}

theorem eq_of_mem_iff (same : ∀ name, name ∈ left ↔ name ∈ right) : left = right := by
  have names : left.names = right.names := left.sorted.eq_of_mem_iff right.sorted same
  cases left
  cases right
  cases names
  rfl

theorem size_le_of_subset (within : ∀ name ∈ left, name ∈ right) : left.size ≤ right.size :=
  (left.nodup_names.subperm within).length_le

end NameSet

/-- What is asked of a loader, whoever asks. -/
structure Load where
  context : RequestContext
  request : LoadRequest

def Waiter.load (waiter : Waiter) : Load := ⟨waiter.context, waiter.request⟩

namespace Caller

def load (caller : Caller) : Load := ⟨caller.context, caller.request⟩

/-- What stands for a caller that was taken in. -/
def waiter? (caller : Caller) : Option Waiter :=
  match caller.receipt with
  | .answered _ => none
  | .waiting ticket => some ⟨ticket, caller.context, caller.request⟩

theorem waiter?_eq_some {caller : Caller} {waiter : Waiter} : caller.waiter? = some waiter ↔
    caller.receipt = .waiting waiter.ticket ∧ caller.load = waiter.load := by
  obtain ⟨context, request, receipt⟩ := caller
  obtain ⟨ticket, itsContext, itsRequest⟩ := waiter
  cases receipt <;> simp [waiter?, load, Waiter.load]

end Caller

namespace Load

def key (load : Load) : BatchKey := load.request.key load.context

/-- The loads of a key that ask for some ids; the others never get into a batch. -/
def sharing (loads : List Load) (key : BatchKey) : List Load :=
  loads.filter fun load => load.key = key ∧ load.request.ids ≠ []

/-- All that loads of a key ask for. -/
def together (key : BatchKey) (loads : List Load) : Batch where
  typename := key.typename
  location := key.location
  columns := .ofList (loads.flatMap (·.request.columns))
  ids := .ofList (loads.flatMap (·.request.ids))

variable {loads others : List Load} {load : Load} {key : BatchKey}

theorem mem_sharing : load ∈ sharing loads key ↔
    load ∈ loads ∧ load.key = key ∧ load.request.ids ≠ [] := by
  simp [sharing]

theorem mem_together_ids {id : String} :
    id ∈ (together key loads).ids ↔ ∃ load ∈ loads, id ∈ load.request.ids := by
  simp [together, NameSet.mem_ofList]

theorem mem_together_columns {column : String} :
    column ∈ (together key loads).columns ↔ ∃ load ∈ loads, column ∈ load.request.columns := by
  simp [together, NameSet.mem_ofList]

/-- The order of loads, and whether some are repeated, makes no difference to a batch. -/
theorem together_congr (same : ∀ load, load ∈ loads ↔ load ∈ others) :
    together key loads = together key others := by
  have ids : (together key loads).ids = (together key others).ids :=
    NameSet.eq_of_mem_iff fun _ => by simp only [mem_together_ids, same]
  have columns : (together key loads).columns = (together key others).columns :=
    NameSet.eq_of_mem_iff fun _ => by simp only [mem_together_columns, same]
  rw [together, together, Batch.mk.injEq]
  exact ⟨rfl, rfl, columns, ids⟩

end Load

/-- The query of a batch is made of its place, its columns and its ids. -/
theorem Batch.query_congr {batch other : Batch} (location : batch.location = other.location)
    (columns : batch.columns = other.columns) (ids : batch.ids = other.ids)
    (context : RequestContext) : batch.query context = other.query context := by
  simp only [query, statement, location, columns, ids]

namespace LoaderRun

variable {batchSize window : Nat} {before after run : LoaderRun} {waiter : Waiter}

/-- The callers that arrive while a window is open. -/
def callersIn (window : Nat) (run : LoaderRun) : List LoaderEvent → List Caller
  | [] => []
  | event :: rest =>
    let next := run.step event
    (if run.loader.window = window then next.callers.drop run.callers.length else []) ++
      callersIn window next rest

theorem Step.callers_extends (step : Step before after) : before.callers <+: after.callers := by
  cases step with
  | atOnce _ | entered _ _ => exact List.prefix_append _ _
  | _ => exact List.prefix_rfl

theorem foldl_callers_extends (events : List LoaderEvent) (run : LoaderRun) :
    run.callers <+: (events.foldl step run).callers := by
  induction events generalizing run with
  | nil => exact List.prefix_rfl
  | cons event rest ih => exact (step_spec run event).callers_extends.trans (ih _)

theorem callersIn_subset (window : Nat) (run : LoaderRun) (events : List LoaderEvent) :
    callersIn window run events ⊆ (events.foldl step run).callers := by
  induction events generalizing run with
  | nil => exact List.nil_subset _
  | cons event rest ih =>
      intro caller member
      rcases List.mem_append.mp member with here | later
      · split at here
        · exact (foldl_callers_extends rest _).subset (List.mem_of_mem_drop here)
        · cases here
      · exact ih _ later

/-- The accepted loads of a window are those of its callers that wait. -/
theorem mem_acceptedIn {events : List LoaderEvent} :
    waiter ∈ acceptedIn window run events ↔ ∃ caller ∈ callersIn window run events,
      caller.receipt = .waiting waiter.ticket ∧ caller.load = waiter.load := by
  have filtered : acceptedIn window run events =
      (callersIn window run events).filterMap Caller.waiter? := by
    induction events generalizing run with
    | nil => rfl
    | cons event rest ih =>
        obtain ⟨new, callers⟩ := (step_spec run event).callers_extends
        have accepted : (run.step event).accepted =
            run.accepted ++ new.filterMap Caller.waiter? := by
          rw [accepted, ← callers, List.filterMap_append]
          rfl
        rw [acceptedIn, callersIn, ih, List.filterMap_append, arrivals]
        split <;> simp [accepted, ← callers]
  simp only [filtered, List.mem_filterMap, Caller.waiter?_eq_some]

section Launching

/-- As long as the store does not give up, a query that was begun is remembered. -/
theorem Step.launched_subset (step : Step before after)
    (lasting : ∀ call ∈ after.calls, call.reply ≠ .aborted) :
    before.launched window ⊆ after.launched window := by
  refine List.filter_subset _ ?_
  intro flight member
  cases step with
  | idle | atOnce _ | entered _ _ => exact member
  | fired _ =>
      rcases LoaderRun.mem_flown.mp member with flying | called
      · exact LoaderRun.mem_flown.mpr (.inl (List.mem_append_left _ flying))
      · exact LoaderRun.mem_flown.mpr (.inr called)
  | more split _ | ended split _ =>
      simp only [flown, split, List.mem_append, List.map_append, List.map_cons, List.mem_cons,
        List.map_nil] at member ⊢
      grind
  | @aborted origin reply inside received =>
      exact absurd (Drain.receive_aborted received) (lasting ⟨origin, reply⟩ (by simp))

/-- Every load of a window that has fired is carried by a query that was begun then. -/
theorem launched_of_accepted (batchSize : Nat) (events : List LoaderEvent)
    (lasting : ∀ call ∈ (of batchSize events).calls, call.reply ≠ .aborted) :
    ∀ window < (of batchSize events).loader.window,
      ∀ waiter ∈ acceptedIn window (start batchSize) events,
        ∃ flight ∈ (of batchSize events).launched window, waiter ∈ flight.bucket.waiters := by
  induction events using List.reverseRecOn with
  | nil => exact fun window fired => absurd fired (Nat.not_lt_zero window)
  | append_singleton events event ih =>
      intro window fired waiter accepted
      have current := (collected batchSize events).current
      have step := step_spec (of batchSize events) event
      rw [of_concat] at lasting fired ⊢
      rw [acceptedIn_concat] at accepted
      have lastingBefore : ∀ call ∈ (of batchSize events).calls, call.reply ≠ .aborted :=
        fun call made => lasting call (step.calls_extends.subset made)
      change waiter ∈ _ ++
        arrivals window (of batchSize events) ((of batchSize events).step event) at accepted
      generalize of batchSize events = before at *
      generalize before.step event = after at *
      rcases Nat.lt_or_ge window before.loader.window with past | reached
      · have arrived : waiter ∈ acceptedIn window (start batchSize) events := by
          simpa [arrivals, Nat.ne_of_gt past] using accepted
        obtain ⟨flight, begun, carried⟩ := ih lastingBefore window past waiter arrived
        exact ⟨flight, step.launched_subset lasting begun, carried⟩
      · cases step with
        | fired outstanding =>
            obtain rfl : window = before.loader.window :=
              Nat.le_antisymm (Nat.le_of_lt_succ fired) reached
            replace accepted := (List.mem_append.mp accepted).resolve_right
              (by simp [arrivals, LoaderRun.accepted])
            obtain ⟨bucket, waits, carried⟩ :=
              List.mem_flatMap.mp (current.everyone.mem_iff.mpr accepted)
            refine ⟨.start before.loader.window bucket, ?_, carried⟩
            refine List.mem_filter.mpr ⟨mem_flown.mpr (.inl ?_), by
              simp [Flight.startsIn, Flight.start, Drain.start]⟩
            exact List.mem_append_right _ (List.mem_map_of_mem waits)
        | _ => exact absurd fired (Nat.not_lt.mpr reached)

end Launching

end LoaderRun

end DocGraph
