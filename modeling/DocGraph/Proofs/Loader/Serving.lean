import DocGraph.Proofs.Loader.Accounting
import DocGraph.Proofs.Loader.Merging

namespace DocGraph

open Json

def Bucket.query (bucket : Bucket) : StoreQuery := bucket.batch.query bucket.context

/-- Calls by which a flight came to where it is. -/
structure Flight.Underway (flight : Flight) (calls : List StoreCall) : Prop where
  carrier : ∀ call ∈ calls, call.flight.bucket = flight.bucket
  draining : Draining flight.bucket.query (calls.map (·.exchange)) flight.drain

/-- Calls by which a bucket got all rows of its query. The last of them
completed the rows. -/
structure Bucket.Landed (bucket : Bucket) (calls : List StoreCall) (rows : List Value) :
    Prop where
  carrier : ∀ call ∈ calls, call.flight.bucket = bucket
  drained : Drained bucket.query (calls.map (·.exchange)) rows
  completed : ∃ call ∈ calls, ∃ page, call.reply = .page page ∧ page.nextCursor = none ∧
    rows = call.flight.drain.rows ++ page.items

/-- Calls with which the query of a bucket ended. -/
structure Bucket.Completes (bucket : Bucket) (calls : List StoreCall)
    (result : Except StoreError (List Value)) : Prop where
  carrier : ∀ call ∈ calls, call.flight.bucket = bucket
  ended : Ended bucket.query (calls.map (·.exchange)) result

theorem Flight.underway_start (window : Nat) (bucket : Bucket) :
    (Flight.start window bucket).Underway [] :=
  ⟨by simp, .start⟩

namespace Flight.Underway

variable {flight : Flight} {calls : List StoreCall} {reply : StoreReply}

theorem carrier_concat (underway : flight.Underway calls) (reply : StoreReply) :
    ∀ call ∈ calls ++ [⟨flight, reply⟩], call.flight.bucket = flight.bucket := by
  intro call member
  rcases List.mem_append.mp member with old | new
  · exact underway.carrier call old
  · rw [List.mem_singleton.mp new]

theorem completes {result : Except StoreError (List Value)} (underway : flight.Underway calls)
    (received : flight.drain.receive reply = .ended result) :
    flight.bucket.Completes (calls ++ [⟨flight, reply⟩]) result where
  carrier := underway.carrier_concat reply
  ended := by
    rw [List.map_append]
    exact underway.draining.ended rfl received

theorem more {drain : Drain} (underway : flight.Underway calls)
    (received : flight.drain.receive reply = .more drain) :
    Flight.Underway { flight with drain } (calls ++ [⟨flight, reply⟩]) := by
  obtain ⟨page, cursor, rfl, goesOn, _, rfl⟩ := Drain.receive_more received
  refine ⟨underway.carrier_concat _, ?_⟩
  rw [List.map_append]
  exact .more underway.draining goesOn

theorem landed {rows : List Value} (underway : flight.Underway calls)
    (received : flight.drain.receive reply = .ended (.ok rows)) :
    flight.bucket.Landed (calls ++ [⟨flight, reply⟩]) rows := by
  obtain ⟨page, rfl, final, rfl⟩ := Drain.receive_ended_ok received
  refine ⟨underway.carrier_concat _, ?_, ⟨flight, .page page⟩, by simp, page, rfl, final, rfl⟩
  rw [List.map_append]
  exact underway.draining.drained (.last final)

end Flight.Underway

namespace LoaderRun

/-- A load was answered out of the complete result of the bucket that it joined. -/
def Served (run : LoaderRun) (waiter : Waiter) (values : List (Option Value)) : Prop :=
  ∃ (bucket : Bucket) (rows : List Value), waiter ∈ bucket.waiters ∧
    bucket.Landed (run.callsFor waiter.ticket) rows ∧
    values = Batch.rowsFor rows waiter.request.ids

/-- Where the calls for the waiters of a run stand. -/
structure Traced (run : LoaderRun) : Prop where
  known : ∀ call ∈ run.calls, ∀ waiter ∈ call.flight.bucket.waiters,
    waiter.ticket < run.loader.accepted
  pending : ∀ waiter ∈ run.loader.pendingWaiters, run.callsFor waiter.ticket = []
  flying : ∀ flight ∈ run.loader.flights, ∀ waiter ∈ flight.bucket.waiters,
    flight.Underway (run.callsFor waiter.ticket)
  served : ∀ answer ∈ run.answers, ∀ values, answer.reply = .ok values →
    run.Served answer.waiter values

section Calls

variable {before after : LoaderRun} {call : StoreCall} {ticket : Nat}

theorem callsFor_of_carried (called : after.calls = before.calls ++ [call])
    (carried : ∃ waiter ∈ call.flight.bucket.waiters, waiter.ticket = ticket) :
    after.callsFor ticket = before.callsFor ticket ++ [call] := by
  simp [callsFor, called, carried]

theorem callsFor_of_not_carried (called : after.calls = before.calls ++ [call])
    (absent : ∀ waiter ∈ call.flight.bucket.waiters, waiter.ticket ≠ ticket) :
    after.callsFor ticket = before.callsFor ticket := by
  simpa [callsFor, called, List.filter_cons] using absent

end Calls

namespace Accounted

variable {run : LoaderRun}

theorem ticket_lt (accounted : run.Accounted) {waiter : Waiter}
    (member : waiter ∈ run.loader.pendingWaiters ++ run.loader.flyingWaiters ++ run.answered) :
    waiter.ticket < run.loader.accepted := by
  have inside := List.mem_map_of_mem (f := (·.ticket)) (accounted.everyone.mem_iff.mp member)
  rw [accounted.tickets] at inside
  exact List.mem_range.mp inside

/-- A flight carries no waiter that is also elsewhere. -/
theorem apart (accounted : run.Accounted) {flightsBefore flightsAfter : List Flight}
    {flight : Flight} (split : run.loader.flights = flightsBefore ++ flight :: flightsAfter)
    {other : Waiter} (elsewhere : other ∈ run.loader.pendingWaiters ∨
      (∃ flying ∈ flightsBefore ++ flightsAfter, other ∈ flying.bucket.waiters) ∨
      ∃ answer ∈ run.answers, answer.waiter = other) :
    ∀ waiter ∈ flight.bucket.waiters, waiter.ticket ≠ other.ticket := by
  have distinct := accounted.tickets_nodup
  have front : (run.loader.pendingWaiters ++ run.loader.flyingWaiters ++ run.answered).Perm
      (flight.bucket.waiters ++ (run.loader.pendingWaiters ++
        (flightsBefore ++ flightsAfter).flatMap (·.bucket.waiters) ++ run.answered)) := by
    simp only [Loader.flyingWaiters, split, List.flatMap_append, List.flatMap_cons]
    grind
  rw [(front.map _).nodup_iff, List.map_append, List.nodup_append] at distinct
  have inside : other ∈ run.loader.pendingWaiters ++
      (flightsBefore ++ flightsAfter).flatMap (·.bucket.waiters) ++ run.answered := by
    rw [List.append_assoc, List.mem_append, List.mem_append, List.mem_flatMap]
    exact elsewhere.imp_right (.imp_right List.mem_map.mpr)
  exact fun waiter member => distinct.2.2 _ (List.mem_map_of_mem member) _
    (List.mem_map_of_mem inside)

end Accounted

theorem traced_start (batchSize : Nat) : (start batchSize).Traced where
  known := by simp [start]
  pending := by simp [start, callsFor]
  flying := by simp [start]
  served := by simp [start]

section Call

variable {before after : LoaderRun} {flightsBefore flightsAfter : List Flight} {flight : Flight}
  {reply : StoreReply}

theorem Traced.known_of_call (traced : before.Traced) (accounted : before.Accounted)
    (member : flight ∈ before.loader.flights)
    (called : after.calls = before.calls ++ [⟨flight, reply⟩]) :
    ∀ call ∈ after.calls, ∀ waiter ∈ call.flight.bucket.waiters,
      waiter.ticket < before.loader.accepted := by
  intro call inside waiter carried
  rw [called] at inside
  rcases List.mem_append.mp inside with old | new
  · exact traced.known call old waiter carried
  · rw [List.mem_singleton.mp new] at carried
    have flying : waiter ∈ before.loader.flyingWaiters :=
      List.mem_flatMap.mpr ⟨flight, member, carried⟩
    exact accounted.ticket_lt (List.mem_append_left _ (List.mem_append_right _ flying))

/-- A call is about the waiters of its flight and about no others, so it only
matters what becomes of that flight. -/
theorem Traced.of_call (traced : before.Traced) (accounted : before.Accounted)
    (split : before.loader.flights = flightsBefore ++ flight :: flightsAfter)
    (called : after.calls = before.calls ++ [⟨flight, reply⟩])
    (samePending : after.loader.pendingWaiters = before.loader.pendingWaiters)
    (sameAccepted : after.loader.accepted = before.loader.accepted)
    (flights : ∀ flying ∈ after.loader.flights, flying ∈ flightsBefore ++ flightsAfter ∨
      flying.bucket = flight.bucket ∧ ∀ calls, flight.Underway calls →
        flying.Underway (calls ++ [⟨flight, reply⟩]))
    (answers : ∀ answer ∈ after.answers, ∀ values, answer.reply = .ok values →
      answer ∈ before.answers ∨
      answer.waiter ∈ flight.bucket.waiters ∧ ∃ rows,
        values = Batch.rowsFor rows answer.waiter.request.ids ∧ ∀ calls, flight.Underway calls →
          flight.bucket.Landed (calls ++ [⟨flight, reply⟩]) rows) :
    after.Traced := by
  have member : flight ∈ before.loader.flights := by simp [split]
  have carriedBy : ∀ waiter ∈ flight.bucket.waiters,
      after.callsFor waiter.ticket = before.callsFor waiter.ticket ++ [⟨flight, reply⟩] :=
    fun waiter carried => callsFor_of_carried called ⟨waiter, carried, rfl⟩
  refine ⟨?_, ?_, ?_, ?_⟩
  · rw [sameAccepted]
    exact traced.known_of_call accounted member called
  · intro waiter pending
    rw [samePending] at pending
    rw [callsFor_of_not_carried called (accounted.apart split (.inl pending))]
    exact traced.pending waiter pending
  · intro flying inside waiter carried
    rcases flights flying inside with other | ⟨same, goesOn⟩
    · have apart := accounted.apart split (.inr (.inl ⟨flying, other, carried⟩))
      rw [callsFor_of_not_carried called apart]
      refine traced.flying flying ?_ waiter carried
      rw [split]
      exact (List.Sublist.append_left (List.sublist_cons_self _ _) _).subset other
    · rw [same] at carried
      rw [carriedBy waiter carried]
      exact goesOn _ (traced.flying flight member waiter carried)
  · intro answer inside values replied
    rcases answers answer inside values replied with old | ⟨carried, rows, same, landed⟩
    · have apart := accounted.apart split (.inr (.inr ⟨answer, old, rfl⟩))
      rw [Served, callsFor_of_not_carried called apart]
      exact traced.served answer old values replied
    · refine ⟨flight.bucket, rows, carried, ?_, same⟩
      rw [carriedBy _ carried]
      exact landed _ (traced.flying flight member _ carried)

end Call

theorem Traced.step {before after : LoaderRun} (traced : before.Traced)
    (accounted : before.Accounted) (step : Step before after) : after.Traced := by
  cases step with
  | idle => exact traced
  | atOnce _ => exact ⟨traced.known, traced.pending, traced.flying, traced.served⟩
  | @entered context request _ _ =>
      let waiter : Waiter := ⟨before.loader.accepted, context, request⟩
      refine ⟨?_, ?_, traced.flying, traced.served⟩
      · intro call member other inside
        exact Nat.lt_succ_of_lt (traced.known call member other inside)
      · intro other member
        rcases List.mem_append.mp ((Bucket.enter_waiters _ waiter _).mem_iff.mp member) with
          old | new
        · exact traced.pending other old
        · rw [List.mem_singleton.mp new]
          refine List.filter_eq_nil_iff.mpr fun call called carries => ?_
          obtain ⟨known, inside, same⟩ := List.any_eq_true.mp carries
          have earlier := traced.known call called known inside
          rw [beq_iff_eq.mp same] at earlier
          exact Nat.lt_irrefl _ earlier
  | fired _ =>
      refine ⟨traced.known, by simp [Loader.fire_pendingWaiters], ?_, traced.served⟩
      intro flight member waiter inside
      rcases List.mem_append.mp member with old | new
      · exact traced.flying flight old waiter inside
      · obtain ⟨bucket, taken, rfl⟩ := List.mem_map.mp new
        have none := traced.pending waiter (List.mem_flatMap.mpr ⟨bucket, taken, inside⟩)
        exact none ▸ Flight.underway_start _ bucket
  | more split received =>
      refine traced.of_call accounted split rfl rfl rfl ?_ fun _ old _ _ => .inl old
      intro flying inside
      simp only [List.mem_append, List.mem_cons] at inside ⊢
      rcases inside with earlier | rfl | later
      · exact .inl (.inl earlier)
      · exact .inr ⟨rfl, fun calls underway => underway.more received⟩
      · exact .inl (.inr later)
  | @ended _ _ flight _ result split received =>
      refine traced.of_call accounted split rfl rfl rfl (fun _ inside => .inl inside) ?_
      intro answer inside values replied
      rcases List.mem_append.mp inside with old | new
      · exact .inl old
      · obtain ⟨waiter, carried, rfl⟩ := List.mem_map.mp new
        cases result with
        | error error => simp at replied
        | ok rows =>
            cases replied
            exact .inr ⟨carried, rows, rfl, fun calls underway => underway.landed received⟩
  | @aborted flight _ member received =>
      obtain ⟨flightsBefore, flightsAfter, split⟩ := List.append_of_mem member
      refine traced.of_call accounted split rfl rfl rfl ?_ ?_
      · intro flying kept
        obtain ⟨inside, elsewhere⟩ := List.mem_filter.mp kept
        have different : flying ≠ flight := by
          rintro rfl
          simp at elsewhere
        refine .inl ?_
        simpa [split, different] using inside
      · intro answer inside values replied
        rcases List.mem_append.mp inside with old | new
        · exact .inl old
        · obtain ⟨lost, _, dropped⟩ := List.mem_flatMap.mp new
          obtain ⟨waiter, _, rfl⟩ := List.mem_map.mp dropped
          cases replied

theorem traced (batchSize : Nat) (events : List LoaderEvent) : (of batchSize events).Traced :=
  (of_induction (motive := fun run => run.Accounted ∧ run.Traced)
    ⟨accounted_start batchSize, traced_start batchSize⟩
    (fun _ held step => ⟨held.1.step step, held.2.step held.1 step⟩) events).2

end LoaderRun

end DocGraph
