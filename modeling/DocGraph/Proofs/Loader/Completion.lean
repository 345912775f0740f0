import DocGraph.Proofs.Loader.Documents
import DocGraph.Proofs.Loader.Windows

/-!
# Every load is answered once

A load that was taken in waits in one bucket until it is answered, and it is
answered once: with what the query of its bucket ended with, or as dropped because
a flight of the same window was given up first. No load waits without a timer that
will fire or a flight that waits for the store, and what other windows do is left
alone.
-/

namespace DocGraph

open Json

namespace Drain

variable {drain next : Drain} {reply : StoreReply}

theorem receive_aborted (received : drain.receive reply = .aborted) : reply = .aborted := by
  cases reply with
  | aborted => rfl
  | failed error => simp [receive] at received
  | page page =>
      simp only [receive, absorb] at received
      split at received
      · contradiction
      · split at received <;> contradiction

end Drain

namespace LoaderRun

variable {batchSize : Nat} {before after run : LoaderRun} {waiter : Waiter} {reply : LoadReply}

/-- The buckets whose loads are not answered yet: those that wait and those in flight. -/
def openBuckets (run : LoaderRun) : List Bucket :=
  run.loader.pending ++ run.loader.flights.map (·.bucket)

/-- The query of the bucket that a load joined has ended. -/
def Completed (run : LoaderRun) (waiter : Waiter) (result : Except StoreError (List Value)) :
    Prop :=
  ∃ bucket : Bucket, waiter ∈ bucket.waiters ∧
    bucket.Completes (run.callsFor waiter.ticket) result

/-- The store gave up on a flight of the window that a load was collected in, and the
flight that carried the load had not ended by then. -/
def Lost (run : LoaderRun) (waiter : Waiter) : Prop :=
  ∃ (flight : Flight) (calls : List StoreCall),
    waiter ∈ flight.bucket.waiters ∧ flight.Underway calls ∧
    (run.callsFor waiter.ticket = calls ∨
      run.callsFor waiter.ticket = calls ++ [⟨flight, .aborted⟩]) ∧
    ∃ call ∈ run.calls, call.reply = .aborted ∧ call.flight.window = flight.window

/-- What a load that was taken in may be answered with: for each of its ids the last row with
it, the error of the query, or that it was dropped. -/
inductive Settled (run : LoaderRun) (waiter : Waiter) : LoadReply → Prop
  | rows {rows : List Value} {values : List (Option Value)}
      (completed : run.Completed waiter (.ok rows))
      (last : List.Forall₂ (fun id => Batch.LastWithId id rows) waiter.request.ids values) :
      Settled run waiter (.ok values)
  | failed {error : StoreError} (completed : run.Completed waiter (.error error)) :
      Settled run waiter (.error (.store error))
  | dropped (lost : run.Lost waiter) : Settled run waiter (.error .dropped)

theorem Settled.mono (settled : before.Settled waiter reply)
    (same : after.callsFor waiter.ticket = before.callsFor waiter.ticket)
    (kept : before.calls ⊆ after.calls) : after.Settled waiter reply := by
  cases settled with
  | rows completed last => exact .rows (by rwa [Completed, same]) last
  | failed completed => exact .failed (by rwa [Completed, same])
  | dropped lost =>
      obtain ⟨flight, calls, joined, underway, called, call, made, aborted⟩ := lost
      refine .dropped ⟨flight, calls, joined, underway, ?_, call, kept made, aborted⟩
      rwa [same]

theorem settled_of_answers {bucket : Bucket} {result : Except StoreError (List Value)}
    {answer : Answer} (given : answer ∈ bucket.answers result)
    (completed : ∀ waiter ∈ bucket.waiters, run.Completed waiter result) :
    run.Settled answer.waiter answer.reply := by
  obtain ⟨waiter, joined, rfl⟩ := List.mem_map.mp given
  cases result with
  | ok rows => exact .rows (completed waiter joined) (Batch.rowsFor_lastWithId rows _)
  | error error => exact .failed (completed waiter joined)

def Explained (run : LoaderRun) : Prop :=
  ∀ answer ∈ run.answers, run.Settled answer.waiter answer.reply

section Call

variable {flightsBefore flightsAfter : List Flight} {flight : Flight} {received : StoreReply}

theorem Explained.settled_of_call (explained : before.Explained) (accounted : before.Accounted)
    (split : before.loader.flights = flightsBefore ++ flight :: flightsAfter)
    (called : after.calls = before.calls ++ [⟨flight, received⟩]) {answer : Answer}
    (given : answer ∈ before.answers) : after.Settled answer.waiter answer.reply := by
  have apart := accounted.apart split (.inr (.inr ⟨answer, given, rfl⟩))
  have kept : before.calls ⊆ after.calls := by
    rw [called]
    exact List.subset_append_left _ _
  exact (explained answer given).mono (callsFor_of_not_carried called apart) kept

theorem Traced.lost_of_call (traced : before.Traced) (accounted : before.Accounted)
    (split : before.loader.flights = flightsBefore ++ flight :: flightsAfter)
    (called : after.calls = before.calls ++ [⟨flight, .aborted⟩]) {lost : Flight}
    (member : lost ∈ before.loader.flights) (sameWindow : lost.window = flight.window)
    (joined : waiter ∈ lost.bucket.waiters) : after.Lost waiter := by
  have underway := traced.flying lost member waiter joined
  have made : ⟨flight, .aborted⟩ ∈ after.calls := by simp [called]
  refine ⟨lost, before.callsFor waiter.ticket, joined, underway, ?_, _, made, rfl,
    sameWindow.symm⟩
  by_cases same : lost = flight
  · subst same
    exact .inr (callsFor_of_carried called ⟨waiter, joined, rfl⟩)
  · have other : lost ∈ flightsBefore ++ flightsAfter := by
      simpa [split, same] using member
    have apart := accounted.apart split (.inr (.inl ⟨lost, other, joined⟩))
    exact .inl (callsFor_of_not_carried called apart)

end Call

theorem Explained.step (explained : before.Explained) (accounted : before.Accounted)
    (traced : before.Traced) (step : Step before after) : after.Explained := by
  intro answer given
  cases step with
  | idle | atOnce _ | entered _ _ | fired _ =>
      exact (explained answer given).mono rfl (List.Subset.refl _)
  | more split received => exact explained.settled_of_call accounted split rfl given
  | @ended flightsBefore flightsAfter flight reply result split received =>
      rcases List.mem_append.mp given with old | new
      · exact explained.settled_of_call accounted split rfl old
      · have member : flight ∈ before.loader.flights := by simp [split]
        refine settled_of_answers new fun waiter joined => ?_
        refine ⟨flight.bucket, joined, ?_⟩
        rw [callsFor_of_carried rfl ⟨waiter, joined, rfl⟩]
        exact (traced.flying flight member waiter joined).completes received
  | @aborted flight reply member received =>
      obtain ⟨flightsBefore, flightsAfter, split⟩ := List.append_of_mem member
      obtain rfl := Drain.receive_aborted received
      rcases List.mem_append.mp given with old | new
      · exact explained.settled_of_call accounted split rfl old
      · obtain ⟨lost, gone, dropped⟩ := List.mem_flatMap.mp new
        obtain ⟨inside, sameWindow⟩ := List.mem_filter.mp gone
        obtain ⟨waiter, joined, rfl⟩ := List.mem_map.mp dropped
        exact .dropped (traced.lost_of_call accounted split rfl inside
          (beq_iff_eq.mp sameWindow) joined)

theorem explained (batchSize : Nat) (events : List LoaderEvent) :
    (of batchSize events).Explained :=
  (of_induction (motive := fun run => run.Accounted ∧ run.Traced ∧ run.Explained)
    ⟨accounted_start batchSize, traced_start batchSize, by simp [Explained, start]⟩
    (fun _ held step =>
      have ⟨accounted, traced, explained⟩ := held
      ⟨accounted.step step, traced.step accounted step,
        explained.step accounted traced step⟩) events).2.2

structure WaitsOnce (run : LoaderRun) (waiter : Waiter) : Prop where
  inOne : ∃ earlier bucket later, run.openBuckets = earlier ++ bucket :: later ∧
    bucket.waiters.count waiter = 1 ∧ ∀ other ∈ earlier ++ later, waiter ∉ other.waiters
  unanswered : run.answers.filter (·.waiter.ticket == waiter.ticket) = []

structure AnsweredOnce (run : LoaderRun) (waiter : Waiter) (reply : LoadReply) : Prop where
  once : run.answers.filter (·.waiter.ticket == waiter.ticket) = [⟨waiter, reply⟩]
  released : ∀ bucket ∈ run.openBuckets, waiter ∉ bucket.waiters

theorem openBuckets_waiters (run : LoaderRun) : run.openBuckets.flatMap (·.waiters) =
    run.loader.pendingWaiters ++ run.loader.flyingWaiters := by
  simp [openBuckets, Loader.pendingWaiters, Loader.flyingWaiters, List.flatMap_map]

namespace Accounted

variable (accounted : run.Accounted)

include accounted

theorem waiters_nodup : (run.openBuckets.flatMap (·.waiters) ++ run.answered).Nodup := by
  rw [openBuckets_waiters]
  exact accounted.tickets_nodup.of_map

theorem mem_open_or_answered (taken : waiter ∈ run.accepted) :
    waiter ∈ run.openBuckets.flatMap (·.waiters) ∨ waiter ∈ run.answered := by
  rw [openBuckets_waiters, ← List.mem_append]
  exact accounted.everyone.mem_iff.mpr taken

theorem waiter_eq_of_ticket_eq {answer : Answer} (given : answer ∈ run.answers)
    (taken : waiter ∈ run.accepted) (same : answer.waiter.ticket = waiter.ticket) :
    answer.waiter = waiter := by
  have answered : answer.waiter ∈ run.answered := List.mem_map_of_mem given
  have accepted := accounted.everyone.mem_iff.mp (List.mem_append_right _ answered)
  exact accounted.eq_of_ticket_eq accepted taken same

theorem waitsOnce (waits : waiter ∈ run.openBuckets.flatMap (·.waiters)) :
    run.WaitsOnce waiter := by
  have distinct := accounted.waiters_nodup
  have taken : waiter ∈ run.accepted := by
    rw [openBuckets_waiters] at waits
    exact accounted.everyone.mem_iff.mp (List.mem_append_left _ waits)
  refine ⟨?_, ?_⟩
  · obtain ⟨bucket, member, joined⟩ := List.mem_flatMap.mp waits
    obtain ⟨earlier, later, split⟩ := List.append_of_mem member
    refine ⟨earlier, bucket, later, split, ?_⟩
    simp only [split, List.flatMap_append, List.flatMap_cons, List.append_assoc] at distinct
    obtain ⟨_, behind, apartEarlier⟩ := List.nodup_append.mp distinct
    obtain ⟨inside, _, apartLater⟩ := List.nodup_append.mp behind
    refine ⟨List.count_eq_one_of_mem inside joined, ?_⟩
    intro other elsewhere twice
    rcases List.mem_append.mp elsewhere with early | late
    · exact apartEarlier waiter (List.mem_flatMap.mpr ⟨other, early, twice⟩) waiter
        (List.mem_append_left _ joined) rfl
    · exact apartLater waiter joined waiter
        (List.mem_append_left _ (List.mem_flatMap.mpr ⟨other, late, twice⟩)) rfl
  · refine List.filter_eq_nil_iff.mpr fun answer given same => ?_
    have answered : waiter ∈ run.answered := by
      rw [← accounted.waiter_eq_of_ticket_eq given taken (beq_iff_eq.mp same)]
      exact List.mem_map_of_mem given
    exact (List.nodup_append.mp distinct).2.2 waiter waits waiter answered rfl

theorem answeredOnce {answer : Answer} (given : answer ∈ run.answers) :
    run.AnsweredOnce answer.waiter answer.reply := by
  refine ⟨?_, ?_⟩
  · obtain ⟨earlier, later, split⟩ := List.append_of_mem given
    have distinct : (run.answered.map (·.ticket)).Nodup := by
      have tickets := accounted.tickets_nodup
      rw [List.map_append] at tickets
      exact (List.nodup_append.mp tickets).2.1
    rw [answered, List.map_map, split] at distinct
    have apart := List.pairwise_map.mp distinct
    rw [List.pairwise_append, List.pairwise_cons] at apart
    obtain ⟨_, ⟨behind, _⟩, across⟩ := apart
    have before : ∀ other ∈ earlier, ¬(other.waiter.ticket == answer.waiter.ticket) = true :=
      fun other early same => across other early answer List.mem_cons_self (beq_iff_eq.mp same)
    have after : ∀ other ∈ later, ¬(other.waiter.ticket == answer.waiter.ticket) = true :=
      fun other late same => behind other late (beq_iff_eq.mp same).symm
    rw [split, List.filter_append, List.filter_cons_of_pos (by simp),
      List.filter_eq_nil_iff.mpr before, List.filter_eq_nil_iff.mpr after]
    rfl
  · intro bucket member joined
    have waits := List.mem_flatMap.mpr ⟨bucket, member, joined⟩
    have answered : answer.waiter ∈ run.answered := List.mem_map_of_mem given
    exact (List.nodup_append.mp accounted.waiters_nodup).2.2 _ waits _ answered rfl

end Accounted

theorem replyOf_eq {caller : Caller} {ticket : Nat} (receipt : caller.receipt = .waiting ticket) :
    run.replyOf caller =
      (run.answers.filter (·.waiter.ticket == ticket)).head?.map (·.reply) := by
  rw [replyOf, receipt, List.head?_filter]

theorem waits_or_answered (accounted : run.Accounted) (explained : run.Explained)
    (taken : waiter ∈ run.accepted) :
    run.WaitsOnce waiter ∨ ∃ reply, run.AnsweredOnce waiter reply ∧ run.Settled waiter reply := by
  rcases accounted.mem_open_or_answered taken with waits | answered
  · exact .inl (accounted.waitsOnce waits)
  · obtain ⟨answer, given, rfl⟩ := List.mem_map.mp answered
    exact .inr ⟨answer.reply, accounted.answeredOnce given, explained answer given⟩

section Landing

variable {flight : Flight} {others : List Flight} {received : StoreReply}

end Landing

theorem accepted_extends (batchSize : Nat) (earlier later : List LoaderEvent) :
    (of batchSize earlier).accepted <+: (of batchSize (earlier ++ later)).accepted :=
  later_induction (motive := fun run => (of batchSize earlier).accepted <+: run.accepted)
    List.prefix_rfl (fun _ held step => held.trans step.accepted_extends) later

theorem waits_or_replied (batchSize : Nat) (events : List LoaderEvent) {caller : Caller}
    {ticket : Nat} (arrived : caller ∈ (of batchSize events).callers)
    (receipt : caller.receipt = .waiting ticket) :
    let run := of batchSize events
    let waiter : Waiter := ⟨ticket, caller.context, caller.request⟩
    (run.WaitsOnce waiter ∧ run.replyOf caller = none) ∨
      ∃ reply, run.AnsweredOnce waiter reply ∧ run.Settled waiter reply ∧
        run.replyOf caller = some reply := by
  intro run waiter
  have taken := mem_accepted_of_receipt arrived receipt
  rcases waits_or_answered (accounted batchSize events) (explained batchSize events) taken with
    waits | ⟨reply, answered, settled⟩
  · refine .inl ⟨waits, ?_⟩
    rw [replyOf_eq receipt, waits.unanswered]
    rfl
  · refine .inr ⟨reply, answered, settled, ?_⟩
    rw [replyOf_eq receipt, answered.once]
    rfl

end LoaderRun

end DocGraph
