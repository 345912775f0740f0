import DocGraph.Proofs.Loader.Run
import Mathlib.Data.List.Nodup
import Mathlib.Data.List.Perm.Basic

namespace DocGraph

open Json

namespace Bucket

/-- A load that enters is one waiter more, in whatever bucket. -/
theorem enter_waiters (batchSize : Nat) (waiter : Waiter) (buckets : List Bucket) :
    ((enter batchSize waiter buckets).flatMap (·.waiters)).Perm
      (buckets.flatMap (·.waiters) ++ [waiter]) := by
  induction buckets with
  | nil => exact .refl _
  | cons first rest ih =>
      simp only [enter]
      split
      · simp only [join, List.flatMap_cons, List.append_assoc]
        exact .append_left _ List.perm_append_comm
      · simp only [List.flatMap_cons, List.append_assoc]
        exact ih.append_left _

@[simp] theorem answers_waiters (bucket : Bucket) (result : Except StoreError (List Value)) :
    (bucket.answers result).map (·.waiter) = bucket.waiters := by
  simp [answers, Function.comp_def]

@[simp] theorem dropped_waiters (bucket : Bucket) :
    bucket.dropped.map (·.waiter) = bucket.waiters := by
  simp [dropped, Function.comp_def]

end Bucket

namespace Loader

def pendingWaiters (loader : Loader) : List Waiter := loader.pending.flatMap (·.waiters)

def flyingWaiters (loader : Loader) : List Waiter :=
  loader.flights.flatMap (·.bucket.waiters)

theorem fire_pendingWaiters (loader : Loader) : loader.fire.pendingWaiters = [] := rfl

theorem fire_flyingWaiters (loader : Loader) :
    loader.fire.flyingWaiters = loader.flyingWaiters ++ loader.pendingWaiters := by
  simp [flyingWaiters, pendingWaiters, fire, Flight.start, List.flatMap_map]

end Loader

namespace LoaderRun

def answered (run : LoaderRun) : List Waiter := run.answers.map (·.waiter)

/-- The tickets of accepted loads are their numbers, and every accepted load is
pending, in flight or answered, in one place and once. -/
structure Accounted (run : LoaderRun) : Prop where
  tickets : run.accepted.map (·.ticket) = List.range run.loader.accepted
  everyone : (run.loader.pendingWaiters ++ run.loader.flyingWaiters ++ run.answered).Perm
    run.accepted

theorem accounted_start (batchSize : Nat) : (start batchSize).Accounted := ⟨rfl, .refl _⟩

/-- Moving waiters from flight to the answers loses none. -/
theorem settled_perm {pending flying landed staying answered : List Waiter}
    (parts : flying.Perm (staying ++ landed)) :
    (pending ++ staying ++ (answered ++ landed)).Perm (pending ++ flying ++ answered) := by
  have moved : (staying ++ (answered ++ landed)).Perm (staying ++ landed ++ answered) := by
    rw [List.append_assoc]
    exact .append_left _ List.perm_append_comm
  rw [List.append_assoc, List.append_assoc]
  exact .append_left _ (moved.trans (parts.symm.append_right _))

theorem Accounted.step {before after : LoaderRun} (accounted : before.Accounted)
    (step : Step before after) : after.Accounted := by
  obtain ⟨tickets, everyone⟩ := accounted
  cases step with
  | idle => exact ⟨tickets, everyone⟩
  | atOnce answered =>
      refine ⟨?_, ?_⟩
      · simpa [accepted] using tickets
      · simpa [accepted, LoaderRun.answered] using everyone
  | @entered context request asks fits =>
      let waiter : Waiter := ⟨before.loader.accepted, context, request⟩
      refine ⟨?_, ?_⟩
      · simp only [accepted] at tickets
        simp [accepted, tickets, List.range_succ]
      · have entered := Bucket.enter_waiters before.loader.batchSize waiter before.loader.pending
        have grown : before.accepted ++ [waiter] = accepted { before with
            callers :=
              before.callers ++ [⟨context, request, .waiting before.loader.accepted⟩] } := by
          simp [accepted, waiter]
        refine .trans ?_ (.trans (everyone.append_right [waiter]) (.of_eq grown))
        simp only [Loader.pendingWaiters, List.append_assoc]
        refine (entered.append_right _).trans ?_
        simp only [List.append_assoc]
        refine .append_left _ ?_
        rw [← List.append_assoc (Loader.flyingWaiters _)]
        exact List.perm_append_comm
  | fired outstanding =>
      refine ⟨tickets, .trans ?_ everyone⟩
      simp only [Loader.fire_flyingWaiters, Loader.fire_pendingWaiters, List.nil_append]
      exact .append_right _ List.perm_append_comm
  | more split received =>
      refine ⟨tickets, .trans (.of_eq ?_) everyone⟩
      simp [Loader.flyingWaiters, Loader.pendingWaiters, LoaderRun.answered, split]
  | @ended flightsBefore flightsAfter flight reply result split received =>
      refine ⟨tickets, .trans ?_ everyone⟩
      simp only [LoaderRun.answered, List.map_append, Bucket.answers_waiters]
      refine settled_perm ?_
      simp only [Loader.flyingWaiters, split, List.flatMap_append, List.flatMap_cons,
        List.append_assoc]
      exact .append_left _ List.perm_append_comm
  | @aborted flight reply member received =>
      refine ⟨tickets, .trans ?_ everyone⟩
      simp only [LoaderRun.answered, List.map_append, List.map_flatMap, Bucket.dropped_waiters]
      refine settled_perm ?_
      simp only [Loader.flyingWaiters, ← List.flatMap_append]
      refine .flatMap_right _ (.trans ?_ List.perm_append_comm)
      exact (List.filter_append_perm _ _).symm

theorem accounted (batchSize : Nat) (events : List LoaderEvent) : (of batchSize events).Accounted :=
  of_induction (accounted_start batchSize) (fun _ held step => held.step step) events

theorem Accounted.tickets_nodup {run : LoaderRun} (accounted : run.Accounted) :
    ((run.loader.pendingWaiters ++ run.loader.flyingWaiters ++ run.answered).map
      (·.ticket)).Nodup := by
  rw [(accounted.everyone.map _).nodup_iff, accounted.tickets]
  exact List.nodup_range

theorem Accounted.eq_of_ticket_eq {run : LoaderRun} (accounted : run.Accounted)
    {left right : Waiter} (leftMember : left ∈ run.accepted) (rightMember : right ∈ run.accepted)
    (same : left.ticket = right.ticket) : left = right := by
  have distinct : (run.accepted.map (·.ticket)).Nodup := by
    rw [accounted.tickets]
    exact List.nodup_range
  exact List.inj_on_of_nodup_map distinct leftMember rightMember same

end LoaderRun

end DocGraph
