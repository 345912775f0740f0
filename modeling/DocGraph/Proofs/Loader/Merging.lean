import DocGraph.Proofs.Loader.Run

namespace DocGraph

open Json

/-- A load that asks for some ids, and for no more than a batch takes. -/
structure LoadRequest.Fits (request : LoadRequest) (batchSize : Nat) : Prop where
  asks : request.ids ≠ []
  fits : request.distinctIds ≤ batchSize

namespace Bucket

theorem mem_enter {batchSize : Nat} {waiter : Waiter} {buckets : List Bucket} {bucket : Bucket}
    (member : bucket ∈ enter batchSize waiter buckets) :
    bucket ∈ buckets ∨ bucket = opened waiter ∨
      ∃ joined ∈ buckets, joined.takes batchSize waiter = true ∧ bucket = joined.join waiter := by
  induction buckets with
  | nil => exact .inr (.inl (by simpa [enter] using member))
  | cons first rest ih =>
      simp only [enter] at member
      split at member
      · next takes =>
          rcases List.mem_cons.mp member with rfl | later
          · exact .inr (.inr ⟨first, List.mem_cons_self, takes, rfl⟩)
          · exact .inl (.tail _ later)
      · rcases List.mem_cons.mp member with rfl | later
        · exact .inl List.mem_cons_self
        · rcases ih later with old | new | ⟨joined, old, takes, same⟩
          · exact .inl (.tail _ old)
          · exact .inr (.inl new)
          · exact .inr (.inr ⟨joined, .tail _ old, takes, same⟩)

/-- The loads of a bucket name one context, one place and one type, and it asks for what they
ask for. -/
structure Merged (bucket : Bucket) : Prop where
  contextId : ∀ waiter ∈ bucket.waiters, waiter.context.id = bucket.key.contextId
  place : ∀ waiter ∈ bucket.waiters, waiter.request.location = bucket.key.location
  typename : ∀ waiter ∈ bucket.waiters, waiter.request.typename = bucket.key.typename
  location : bucket.batch.location = bucket.key.location
  ids : ∀ id, id ∈ bucket.batch.ids ↔ ∃ waiter ∈ bucket.waiters, id ∈ waiter.request.ids
  columns : ∀ column, column ∈ bucket.batch.columns ↔
    ∃ waiter ∈ bucket.waiters, column ∈ waiter.request.columns

theorem merged_opened (waiter : Waiter) : (opened waiter).Merged where
  contextId waiter joined := by rw [List.mem_singleton.mp joined]; rfl
  place waiter joined := by rw [List.mem_singleton.mp joined]; rfl
  typename waiter joined := by rw [List.mem_singleton.mp joined]; rfl
  location := rfl
  ids := by simp [opened, LoadRequest.toBatch, NameSet.mem_ofList]
  columns := by simp [opened, LoadRequest.toBatch, NameSet.mem_ofList]

theorem Merged.key {bucket : Bucket} (merged : bucket.Merged) :
    ∀ waiter ∈ bucket.waiters, waiter.key = bucket.key := by
  intro waiter joined
  rw [Waiter.key, LoadRequest.key, merged.contextId waiter joined, merged.place waiter joined,
    merged.typename waiter joined]

theorem key_eq_of_takes {bucket : Bucket} {waiter : Waiter} {batchSize : Nat}
    (takes : bucket.takes batchSize waiter = true) : waiter.key = bucket.key := by
  simp only [Bucket.takes, Bool.and_eq_true, decide_eq_true_eq] at takes
  exact takes.1.symm

/-- What holds of the loads of a bucket and of the one that joins holds of all. -/
theorem forall_mem_join {bucket : Bucket} {waiter : Waiter} {motive : Waiter → Prop}
    (old : ∀ other ∈ bucket.waiters, motive other) (new : motive waiter) :
    ∀ other ∈ (bucket.join waiter).waiters, motive other := by
  intro other member
  rcases List.mem_append.mp member with before | last
  · exact old other before
  · rwa [List.mem_singleton.mp last]

theorem Merged.join {bucket : Bucket} {waiter : Waiter} {batchSize : Nat}
    (merged : bucket.Merged) (takes : bucket.takes batchSize waiter = true) :
    (bucket.join waiter).Merged where
  contextId := forall_mem_join merged.contextId (congrArg (·.contextId) (key_eq_of_takes takes))
  place := forall_mem_join merged.place (congrArg (·.location) (key_eq_of_takes takes))
  typename := forall_mem_join merged.typename (congrArg (·.typename) (key_eq_of_takes takes))
  location := merged.location
  ids := by
    intro id
    simp only [Bucket.join, Batch.merge, LoadRequest.toBatch, NameSet.mem_union,
      NameSet.mem_ofList, merged.ids, List.mem_append, List.mem_singleton, or_and_right,
      exists_or, exists_eq_left]
  columns := by
    intro column
    simp only [Bucket.join, Batch.merge, LoadRequest.toBatch, NameSet.mem_union,
      NameSet.mem_ofList, merged.columns, List.mem_append, List.mem_singleton, or_and_right,
      exists_or, exists_eq_left]

/-- The batch of a bucket goes where each of its loads goes. -/
theorem Merged.location_eq {bucket : Bucket} {waiter : Waiter} (merged : bucket.Merged)
    (member : waiter ∈ bucket.waiters) : bucket.batch.location = waiter.request.location := by
  rw [merged.location, merged.place waiter member]

end Bucket

namespace LoaderRun

/-- All buckets of a run: those that wait, those in flight and those of which a
call was answered. -/
def buckets (run : LoaderRun) : List Bucket :=
  run.loader.pending ++ run.loader.flights.map (·.bucket) ++ run.calls.map (·.flight.bucket)

theorem mem_buckets {run : LoaderRun} {bucket : Bucket} :
    bucket ∈ run.buckets ↔ bucket ∈ run.loader.pending ∨
      (∃ flight ∈ run.loader.flights, flight.bucket = bucket) ∨
      ∃ call ∈ run.calls, call.flight.bucket = bucket := by
  simp [buckets]

/-- A step makes no bucket but by an accepted load that enters. -/
theorem Step.mem_buckets {before after : LoaderRun} (step : Step before after) {bucket : Bucket}
    (member : bucket ∈ after.buckets) :
    bucket ∈ before.buckets ∨ ∃ waiter ∈ after.accepted,
      waiter.request.Fits before.loader.batchSize ∧ (bucket = Bucket.opened waiter ∨
        ∃ joined ∈ before.buckets, joined.takes before.loader.batchSize waiter = true ∧
          bucket = joined.join waiter) := by
  simp only [LoaderRun.mem_buckets] at member ⊢
  cases step with
  | idle => exact .inl member
  | atOnce _ => exact .inl member
  | @entered context request asks fits =>
      have arrived : ⟨before.loader.accepted, context, request⟩ ∈ accepted { before with
          callers := before.callers ++ [⟨context, request, .waiting before.loader.accepted⟩] } := by
        simp [accepted]
      rcases member with pending | elsewhere
      · rcases Bucket.mem_enter pending with old | rfl | ⟨joined, old, takes, same⟩
        · exact .inl (.inl old)
        · exact .inr ⟨_, arrived, ⟨asks, fits⟩, .inl rfl⟩
        · exact .inr ⟨_, arrived, ⟨asks, fits⟩, .inr ⟨joined, .inl old, takes, same⟩⟩
      · exact .inl (.inr elsewhere)
  | fired _ =>
      refine .inl ?_
      rcases member with pending | ⟨flight, inside, same⟩ | called
      · simp [Loader.fire] at pending
      · rcases List.mem_append.mp inside with old | new
        · exact .inr (.inl ⟨flight, old, same⟩)
        · obtain ⟨taken, old, rfl⟩ := List.mem_map.mp new
          exact .inl (same ▸ old)
      · exact .inr (.inr called)
  | more split _ | ended split _ =>
      refine .inl ?_
      simp only [split, List.mem_append, List.mem_cons] at member ⊢
      grind
  | aborted inside _ =>
      refine .inl ?_
      simp only [List.mem_append, List.mem_filter, List.mem_singleton] at member ⊢
      grind

/-- What holds of a new bucket and is kept by every load that joins holds of all
buckets. -/
theorem bucket_induction {batchSize : Nat} {motive : Bucket → Prop}
    (opened : ∀ waiter, waiter.request.Fits batchSize → motive (.opened waiter))
    (join : ∀ {bucket waiter}, motive bucket → waiter.request.Fits batchSize →
      bucket.takes batchSize waiter = true → motive (bucket.join waiter))
    (events : List LoaderEvent) : ∀ bucket ∈ (of batchSize events).buckets, motive bucket := by
  refine of_induction (motive := fun run => ∀ bucket ∈ run.buckets, motive bucket)
    (by simp [start, buckets]) ?_ events
  intro before after size held step bucket member
  rcases step.mem_buckets member with old | ⟨waiter, _, fits, rfl | ⟨joined, old, takes, rfl⟩⟩
  · exact held bucket old
  · exact opened waiter (size ▸ fits)
  · exact join (held joined old) (size ▸ fits) (size ▸ takes)

theorem merged (batchSize : Nat) (events : List LoaderEvent) :
    ∀ bucket ∈ (of batchSize events).buckets, bucket.Merged :=
  bucket_induction (fun waiter _ => Bucket.merged_opened waiter)
    (fun merged _ takes => merged.join takes) events

end LoaderRun

end DocGraph
