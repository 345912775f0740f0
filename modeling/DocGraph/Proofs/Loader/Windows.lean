import DocGraph.Proofs.Loader.Serving

/-!
# Windows and flights

A timer runs exactly while loads wait, and it is the only one. When it fires, the
buckets of its window take off and are closed: they hold loads that were accepted
before, and what their flights ask the store is the one query of their bucket.
-/

namespace DocGraph

open Json

theorem Bucket.enter_ne_nil (batchSize : Nat) (waiter : Waiter) (buckets : List Bucket) :
    enter batchSize waiter buckets ≠ [] := by
  cases buckets with
  | nil => simp [enter]
  | cons first rest =>
      simp only [enter]
      split <;> simp

namespace LoaderRun

/-- The flights of a run: those under way, and those that made the answered calls,
each as it was then. -/
def flown (run : LoaderRun) : List Flight := run.loader.flights ++ run.calls.map (·.flight)

variable {batchSize : Nat} {before after run : LoaderRun} {flight : Flight}

theorem mem_flown : flight ∈ run.flown ↔
    flight ∈ run.loader.flights ∨ ∃ call ∈ run.calls, call.flight = flight := by
  simp [flown]

theorem mem_buckets_of_mem_flown (member : flight ∈ run.flown) : flight.bucket ∈ run.buckets := by
  rw [mem_buckets]
  rcases mem_flown.mp member with flying | ⟨call, called, rfl⟩
  · exact .inr (.inl ⟨flight, flying, rfl⟩)
  · exact .inr (.inr ⟨call, called, rfl⟩)

theorem mem_accepted_of_receipt {caller : Caller} {ticket : Nat} (arrived : caller ∈ run.callers)
    (receipt : caller.receipt = .waiting ticket) :
    ⟨ticket, caller.context, caller.request⟩ ∈ run.accepted :=
  List.mem_filterMap.mpr ⟨caller, arrived, by simp [receipt]⟩

theorem caller_of_mem_accepted {waiter : Waiter} (taken : waiter ∈ run.accepted) :
    ∃ caller ∈ run.callers, caller.receipt = .waiting waiter.ticket ∧
      caller.context = waiter.context ∧ caller.request = waiter.request := by
  obtain ⟨caller, arrived, stands⟩ := List.mem_filterMap.mp taken
  cases receipt : caller.receipt with
  | answered reply => simp [receipt] at stands
  | waiting ticket =>
      simp only [receipt, Option.some.injEq] at stands
      subst stands
      exact ⟨caller, arrived, receipt, rfl, rfl⟩

/-- A flight is new because its window fired, or because a page came in that is not the
last one. -/
theorem Step.mem_flown (step : Step before after) (member : flight ∈ after.flown) :
    flight ∈ before.flown ∨
    (∃ bucket ∈ before.loader.pending, flight = Flight.start before.loader.window bucket ∧
      after.loader.window = before.loader.window + 1) ∨
    ∃ origin ∈ before.flown, ∃ reply drain, origin.drain.receive reply = .more drain ∧
      flight = { origin with drain } ∧ ⟨origin, reply⟩ ∈ after.calls := by
  rw [LoaderRun.mem_flown] at member
  cases step with
  | idle | atOnce _ | entered _ _ => exact .inl (LoaderRun.mem_flown.mpr member)
  | fired _ =>
      rcases member with flying | called
      · rcases List.mem_append.mp flying with old | new
        · exact .inl (LoaderRun.mem_flown.mpr (.inl old))
        · obtain ⟨bucket, taken, rfl⟩ := List.mem_map.mp new
          exact .inr (.inl ⟨bucket, taken, rfl, rfl⟩)
      · exact .inl (LoaderRun.mem_flown.mpr (.inr called))
  | @more flightsBefore flightsAfter origin reply drain split received =>
      have landing : origin ∈ before.flown := LoaderRun.mem_flown.mpr (.inl (by simp [split]))
      simp only [List.mem_append, List.mem_cons, List.not_mem_nil, or_false] at member
      rcases member with (early | rfl | late) | ⟨call, old | rfl, rfl⟩
      · exact .inl (LoaderRun.mem_flown.mpr (.inl (by simp [split, early])))
      · exact .inr (.inr ⟨origin, landing, reply, drain, received, rfl, by simp⟩)
      · exact .inl (LoaderRun.mem_flown.mpr (.inl (by simp [split, late])))
      · exact .inl (LoaderRun.mem_flown.mpr (.inr ⟨call, old, rfl⟩))
      · exact .inl landing
  | @ended flightsBefore flightsAfter origin reply result split received =>
      simp only [List.mem_append, List.mem_singleton] at member
      rcases member with inside | ⟨call, old | rfl, rfl⟩
      · refine .inl (LoaderRun.mem_flown.mpr (.inl ?_))
        rw [split, List.mem_append, List.mem_cons]
        exact inside.imp_right .inr
      · exact .inl (LoaderRun.mem_flown.mpr (.inr ⟨call, old, rfl⟩))
      · exact .inl (LoaderRun.mem_flown.mpr (.inl (by simp [split])))
  | @aborted origin reply inside received =>
      simp only [List.mem_append, List.mem_singleton] at member
      rcases member with kept | ⟨call, old | rfl, rfl⟩
      · exact .inl (LoaderRun.mem_flown.mpr (.inl (List.mem_filter.mp kept).1))
      · exact .inl (LoaderRun.mem_flown.mpr (.inr ⟨call, old, rfl⟩))
      · exact .inl (LoaderRun.mem_flown.mpr (.inl inside))

theorem Step.window_le (step : Step before after) :
    before.loader.window ≤ after.loader.window := by
  cases step with
  | fired _ => exact Nat.le_succ _
  | _ => exact Nat.le_refl _

theorem Step.accepted_extends (step : Step before after) : before.accepted <+: after.accepted := by
  cases step with
  | atOnce _ | entered _ _ => simp [accepted]
  | _ => exact List.prefix_rfl

theorem Step.calls_extends (step : Step before after) : before.calls <+: after.calls := by
  cases step with
  | more _ _ | ended _ _ | aborted _ _ => exact List.prefix_append _ _
  | _ => exact List.prefix_rfl

theorem window_lt (batchSize : Nat) (events : List LoaderEvent) :
    ∀ flight ∈ (of batchSize events).flown,
      flight.window < (of batchSize events).loader.window := by
  refine of_induction (motive := fun run => ∀ flight ∈ run.flown,
    flight.window < run.loader.window) (by simp [start, flown]) ?_ events
  intro before after _ held step flight member
  rcases step.mem_flown member with old | ⟨bucket, _, rfl, fired⟩ |
    ⟨origin, old, reply, drain, _, rfl, _⟩
  · exact Nat.lt_of_lt_of_le (held flight old) step.window_le
  · rw [fired]
    exact Nat.lt_succ_self _
  · exact Nat.lt_of_lt_of_le (held origin old) step.window_le

/-- All calls of a flight ask the query of its bucket, each from another cursor on. -/
theorem query_eq (batchSize : Nat) (events : List LoaderEvent) :
    ∀ flight ∈ (of batchSize events).flown,
      flight.drain.query = { flight.bucket.query with cursor := flight.drain.query.cursor } := by
  refine of_induction (motive := fun run => ∀ flight ∈ run.flown,
    flight.drain.query = { flight.bucket.query with cursor := flight.drain.query.cursor })
    (by simp [start, flown]) ?_ events
  intro before after _ held step flight member
  rcases step.mem_flown member with old | ⟨bucket, _, rfl, _⟩ |
    ⟨origin, old, reply, drain, received, rfl, _⟩
  · exact held flight old
  · rfl
  · obtain ⟨page, cursor, _, _, _, rfl⟩ := Drain.receive_more received
    exact congrArg (fun query : StoreQuery => { query with cursor := some cursor })
      (held origin old)

theorem accepted_of_mem_bucket (batchSize : Nat) (events : List LoaderEvent) :
    ∀ bucket ∈ (of batchSize events).buckets, ∀ waiter ∈ bucket.waiters,
      waiter ∈ (of batchSize events).accepted := by
  refine of_induction (motive := fun run => ∀ bucket ∈ run.buckets,
    ∀ waiter ∈ bucket.waiters, waiter ∈ run.accepted) (by simp [start, buckets]) ?_ events
  intro before after _ held step bucket member waiter inside
  have kept := step.accepted_extends.subset
  rcases step.mem_buckets member with old | ⟨entering, arrived, _, rfl | ⟨joined, old, _, rfl⟩⟩
  · exact kept (held bucket old waiter inside)
  · rw [List.mem_singleton.mp inside]
    exact arrived
  · rcases List.mem_append.mp inside with there | new
    · exact kept (held joined old waiter there)
    · rw [List.mem_singleton.mp new]
      exact arrived

/-- One timer runs while loads wait, and none runs otherwise. -/
structure Timed (run : LoaderRun) : Prop where
  armed : run.loader.timerArmed = true ↔ run.loader.pending ≠ []
  timers : run.timers = if run.loader.timerArmed then 1 else 0

theorem Timed.step (timed : before.Timed) (step : Step before after) : after.Timed := by
  obtain ⟨armed, timers⟩ := timed
  cases step with
  | idle | atOnce _ | more _ _ | ended _ _ | aborted _ _ => exact ⟨armed, timers⟩
  | entered _ _ =>
      refine ⟨by simp [Bucket.enter_ne_nil], ?_⟩
      cases open_ : before.loader.timerArmed <;> simp_all
  | fired outstanding =>
      refine ⟨by simp [Loader.fire], ?_⟩
      cases open_ : before.loader.timerArmed with
      | false => simp [open_, outstanding] at timers
      | true => simpa [open_, outstanding, Loader.fire] using timers

theorem timed (batchSize : Nat) (events : List LoaderEvent) : (of batchSize events).Timed :=
  of_induction (motive := Timed) ⟨by simp [start], rfl⟩ (fun _ held step => held.step step) events

end LoaderRun

end DocGraph
