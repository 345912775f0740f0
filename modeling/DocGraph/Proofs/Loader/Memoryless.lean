import DocGraph.Proofs.Loader.Completion

namespace DocGraph

open Json

namespace Drain

/-- The calls that bring a drain to its end, and what it ends with. -/
inductive EndsBy (answer : StoreQuery → StoreReply) :
    Drain → List Exchange → Except StoreError (List Value) → Prop
  | last {drain : Drain} {result : Except StoreError (List Value)}
      (received : drain.receive (answer drain.query) = .ended result) :
      EndsBy answer drain [⟨drain.query, answer drain.query⟩] result
  | more {drain next : Drain} {calls : List Exchange} {result : Except StoreError (List Value)}
      (received : drain.receive (answer drain.query) = .more next)
      (rest : EndsBy answer next calls result) :
      EndsBy answer drain (⟨drain.query, answer drain.query⟩ :: calls) result

variable {answer : StoreQuery → StoreReply} {drain : Drain} {calls others : List Exchange}
  {result other : Except StoreError (List Value)}

theorem EndsBy.unique (ends : drain.EndsBy answer calls result)
    (endsToo : drain.EndsBy answer others other) : calls = others ∧ result = other := by
  induction ends generalizing others with
  | last received =>
      cases endsToo with
      | last receivedToo =>
          rw [received] at receivedToo
          cases receivedToo
          exact ⟨rfl, rfl⟩
      | more receivedToo _ =>
          rw [received] at receivedToo
          cases receivedToo
  | more received _ ih =>
      cases endsToo with
      | last receivedToo =>
          rw [received] at receivedToo
          cases receivedToo
      | more receivedToo rest =>
          rw [received] at receivedToo
          cases receivedToo
          obtain ⟨rfl, rfl⟩ := ih rest
          exact ⟨rfl, rfl⟩

end Drain

/-- The calls of a flight so far, and no others, come before those that still bring it to
its end. -/
structure Flight.OnCourse (answer : StoreQuery → StoreReply) (flight : Flight)
    (calls : List StoreCall) : Prop where
  own : ∀ call ∈ calls, call.flight.bucket = flight.bucket ∧ call.flight.window = flight.window
  onward : ∀ rest result, flight.drain.EndsBy answer rest result →
    (Drain.start flight.bucket.query).EndsBy answer (calls.map (·.exchange) ++ rest) result

/-- Calls that brought the query of a bucket to its end. -/
structure Bucket.Concluded (answer : StoreQuery → StoreReply) (bucket : Bucket)
    (calls : List StoreCall) (result : Except StoreError (List Value)) : Prop where
  own : ∀ call ∈ calls, call.flight.bucket = bucket
  ends : (Drain.start bucket.query).EndsBy answer (calls.map (·.exchange)) result

namespace Flight.OnCourse

variable {answer : StoreQuery → StoreReply} {flight : Flight} {calls : List StoreCall}
  {reply : StoreReply}

theorem start (answer : StoreQuery → StoreReply) (window : Nat) (bucket : Bucket) :
    (Flight.start window bucket).OnCourse answer [] :=
  ⟨nofun, fun _ _ ends => ends⟩

theorem more {drain : Drain} (course : flight.OnCourse answer calls)
    (answered : reply = answer flight.drain.query)
    (received : flight.drain.receive reply = .more drain) :
    Flight.OnCourse answer { flight with drain } (calls ++ [⟨flight, reply⟩]) := by
  subst answered
  refine ⟨?_, fun rest result ends => ?_⟩
  · intro call member
    rcases List.mem_append.mp member with old | new
    · exact course.own call old
    · rw [List.mem_singleton.mp new]
      exact ⟨rfl, rfl⟩
  · rw [List.map_append, List.append_assoc]
    exact course.onward _ _ (.more received ends)

theorem concluded {result : Except StoreError (List Value)} (course : flight.OnCourse answer calls)
    (answered : reply = answer flight.drain.query)
    (received : flight.drain.receive reply = .ended result) :
    flight.bucket.Concluded answer (calls ++ [⟨flight, reply⟩]) result := by
  subst answered
  refine ⟨?_, ?_⟩
  · intro call member
    rcases List.mem_append.mp member with old | new
    · exact (course.own call old).1
    · rw [List.mem_singleton.mp new]
  · rw [List.map_append]
    exact course.onward _ _ (.last received)

end Flight.OnCourse

namespace LoaderRun

variable {answer : StoreQuery → StoreReply} {before after run : LoaderRun}

/-- All calls so far were answered by a store without memory. -/
def AnsweredBy (run : LoaderRun) (answer : StoreQuery → StoreReply) : Prop :=
  ∀ call ∈ run.calls, call.reply = answer call.exchange.query

theorem AnsweredBy.earlier (answered : after.AnsweredBy answer) (step : Step before after) :
    before.AnsweredBy answer :=
  fun call made => answered call (step.calls_extends.subset made)

/-- What becomes of every load is determined by the query of the bucket that it joined. -/
structure Foreseen (answer : StoreQuery → StoreReply) (run : LoaderRun) : Prop where
  flying : ∀ flight ∈ run.loader.flights, ∀ waiter ∈ flight.bucket.waiters,
    flight.OnCourse answer (run.callsFor waiter.ticket)
  answered : ∀ given ∈ run.answers, ∃ (bucket : Bucket) (result : Except StoreError (List Value)),
    given ∈ bucket.answers result ∧
      bucket.Concluded answer (run.callsFor given.waiter.ticket) result

section Call

variable {flightsBefore flightsAfter : List Flight} {flight : Flight} {reply : StoreReply}

/-- A call moves its own flight on, and leaves what is known of all other loads. -/
theorem Foreseen.of_call (foreseen : before.Foreseen answer) (accounted : before.Accounted)
    (split : before.loader.flights = flightsBefore ++ flight :: flightsAfter)
    (called : after.calls = before.calls ++ [⟨flight, reply⟩])
    (flights : ∀ flying ∈ after.loader.flights, flying ∈ flightsBefore ++ flightsAfter ∨
      flying.bucket = flight.bucket ∧ ∀ calls, flight.OnCourse answer calls →
        flying.OnCourse answer (calls ++ [⟨flight, reply⟩]))
    (answers : ∀ given ∈ after.answers, given ∈ before.answers ∨
      ∃ result, given ∈ flight.bucket.answers result ∧ ∀ calls, flight.OnCourse answer calls →
        flight.bucket.Concluded answer (calls ++ [⟨flight, reply⟩]) result) :
    after.Foreseen answer := by
  have member : flight ∈ before.loader.flights := by simp [split]
  have carriedBy : ∀ waiter ∈ flight.bucket.waiters,
      after.callsFor waiter.ticket = before.callsFor waiter.ticket ++ [⟨flight, reply⟩] :=
    fun waiter carried => callsFor_of_carried called ⟨waiter, carried, rfl⟩
  refine ⟨?_, ?_⟩
  · intro flying inside waiter carried
    rcases flights flying inside with other | ⟨same, goesOn⟩
    · have apart := accounted.apart split (.inr (.inl ⟨flying, other, carried⟩))
      rw [callsFor_of_not_carried called apart]
      refine foreseen.flying flying ?_ waiter carried
      rw [split]
      exact (List.Sublist.append_left (List.sublist_cons_self _ _) _).subset other
    · rw [same] at carried
      rw [carriedBy waiter carried]
      exact goesOn _ (foreseen.flying flight member waiter carried)
  · intro given inside
    rcases answers given inside with old | ⟨result, new, concluded⟩
    · have apart := accounted.apart split (.inr (.inr ⟨given, old, rfl⟩))
      rw [callsFor_of_not_carried called apart]
      exact foreseen.answered given old
    · have carried : given.waiter ∈ flight.bucket.waiters := by
        rw [← Bucket.answers_waiters flight.bucket result]
        exact List.mem_map_of_mem new
      rw [carriedBy _ carried]
      exact ⟨_, result, new, concluded _ (foreseen.flying flight member _ carried)⟩

end Call

theorem Foreseen.step (foreseen : before.Foreseen answer) (accounted : before.Accounted)
    (traced : before.Traced) (lasting : ∀ query, answer query ≠ .aborted)
    (answered : after.AnsweredBy answer) (step : Step before after) : after.Foreseen answer := by
  cases step with
  | idle | atOnce _ | entered _ _ => exact ⟨foreseen.flying, foreseen.answered⟩
  | fired _ =>
      refine ⟨?_, foreseen.answered⟩
      intro flight member waiter carried
      rcases List.mem_append.mp member with old | new
      · exact foreseen.flying flight old waiter carried
      · obtain ⟨bucket, taken, rfl⟩ := List.mem_map.mp new
        have none := traced.pending waiter (List.mem_flatMap.mpr ⟨bucket, taken, carried⟩)
        exact none ▸ .start answer _ bucket
  | @more _ _ flight reply _ split received =>
      have given : reply = answer flight.drain.query := answered ⟨flight, reply⟩ (by simp)
      refine foreseen.of_call accounted split rfl ?_ fun _ old => .inl old
      intro flying inside
      simp only [List.mem_append, List.mem_cons] at inside ⊢
      rcases inside with earlier | rfl | later
      · exact .inl (.inl earlier)
      · exact .inr ⟨rfl, fun _ course => course.more given received⟩
      · exact .inl (.inr later)
  | @ended _ _ flight reply result split received =>
      have given : reply = answer flight.drain.query := answered ⟨flight, reply⟩ (by simp)
      refine foreseen.of_call accounted split rfl (fun _ inside => .inl inside) ?_
      intro new inside
      rcases List.mem_append.mp inside with old | new
      · exact .inl old
      · exact .inr ⟨result, new, fun _ course => course.concluded given received⟩
  | @aborted flight reply _ received =>
      have given : reply = answer flight.drain.query := answered ⟨flight, reply⟩ (by simp)
      exact absurd (given.symm.trans (Drain.receive_aborted received)) (lasting _)

theorem foreseen (batchSize : Nat) (events : List LoaderEvent)
    (lasting : ∀ query, answer query ≠ .aborted)
    (answered : (of batchSize events).AnsweredBy answer) :
    (of batchSize events).Foreseen answer := by
  refine (of_induction (motive := fun run => run.Accounted ∧ run.Traced ∧
    (run.AnsweredBy answer → run.Foreseen answer)) ⟨accounted_start batchSize,
      traced_start batchSize, fun _ => ⟨by simp [start], by simp [start]⟩⟩ ?_ events).2.2 answered
  rintro before after _ ⟨accounted, traced, foreseen⟩ step
  refine ⟨accounted.step step, traced.step accounted step, fun answered => ?_⟩
  exact (foreseen (answered.earlier step)).step accounted traced lasting answered step

end LoaderRun

end DocGraph
