import DocGraph.Proofs.Loader.Packing
import DocGraph.Proofs.Loader.Windows
import Mathlib.Data.List.Induction

namespace DocGraph

/-- A flight of a window asks for its first page. -/
def Flight.startsIn (flight : Flight) (window : Nat) : Bool :=
  flight.window = window ∧ flight.drain.query.cursor = none

namespace LoaderRun

variable {batchSize window : Nat} {before after run : LoaderRun}

def arrivals (window : Nat) (before after : LoaderRun) : List Waiter :=
  if before.loader.window = window then after.accepted.drop before.accepted.length else []

/-- The loads that are accepted while a window is open. -/
def acceptedIn (window : Nat) (run : LoaderRun) : List LoaderEvent → List Waiter
  | [] => []
  | event :: rest =>
    arrivals window run (run.step event) ++ acceptedIn window (run.step event) rest

/-- The calls that begin the queries of the buckets of a key and a window; later calls of
a query go on from a cursor. -/
def openings (run : LoaderRun) (window : Nat) (key : BatchKey) : List StoreCall :=
  run.calls.filter fun call => call.flight.startsIn window ∧ call.flight.bucket.key = key

def launched (run : LoaderRun) (window : Nat) : List Flight :=
  run.flown.filter (·.startsIn window)

theorem acceptedIn_concat (window : Nat) (run : LoaderRun) (events : List LoaderEvent)
    (event : LoaderEvent) : acceptedIn window run (events ++ [event]) =
      acceptedIn window run events ++
        arrivals window (events.foldl step run) ((events.foldl step run).step event) := by
  induction events generalizing run with
  | nil => simp [acceptedIn]
  | cons first rest ih => simp [acceptedIn, ih, List.append_assoc]

theorem arrivals_eq_nil (same : after.accepted = before.accepted) :
    arrivals window before after = [] := by
  simp [arrivals, same]

section Launched

variable {flightsBefore flightsAfter flights : List Flight} {flight : Flight} {reply : StoreReply}

theorem landed_perm (called : after.calls = before.calls ++ [⟨flight, reply⟩])
    (split : before.loader.flights = flightsBefore ++ flight :: flightsAfter) :
    (flightsBefore ++ flightsAfter ++ after.calls.map (·.flight)).Perm before.flown := by
  simp only [flown, called, split, List.map_append, List.map_cons, List.map_nil,
    ← List.append_assoc]
  refine (List.perm_append_singleton _ _).trans ?_
  simp only [List.append_assoc, List.cons_append]
  exact List.perm_middle.symm

theorem launched_landed (called : after.calls = before.calls ++ [⟨flight, reply⟩])
    (split : before.loader.flights = flightsBefore ++ flight :: flightsAfter)
    (fewer : (after.loader.flights.filter (·.startsIn window)).Sublist
      ((flightsBefore ++ flightsAfter).filter (·.startsIn window))) :
    (after.launched window).Subperm (before.launched window) := by
  refine List.Subperm.trans (List.Sublist.subperm ?_)
    ((landed_perm called split).filter _).subperm
  rw [launched, flown, List.filter_append, List.filter_append]
  exact fewer.append_right _

end Launched

/-- Only the window that fires launches queries. -/
theorem Step.launched_subperm (step : Step before after)
    (closed : after.loader.window = before.loader.window) :
    (after.launched window).Subperm (before.launched window) := by
  cases step with
  | idle | atOnce _ | entered _ _ => exact .refl _
  | fired _ => exact absurd closed (Nat.succ_ne_self _)
  | @more flightsBefore flightsAfter origin reply drain split received =>
      obtain ⟨page, cursor, _, _, _, rfl⟩ := Drain.receive_more received
      refine launched_landed rfl split ?_
      simp [Flight.startsIn]
  | ended split _ => exact launched_landed rfl split (List.Sublist.refl _)
  | aborted inside _ =>
      obtain ⟨flightsBefore, flightsAfter, split⟩ := List.append_of_mem inside
      refine launched_landed rfl split (List.Sublist.filter _ ?_)
      simp only [split, List.filter_append]
      refine .append List.filter_sublist ?_
      simp

/-- What the buckets of all windows hold; those that have fired are remembered. -/
structure Collected (batchSize : Nat) (run : LoaderRun) (loads : Nat → List Waiter) : Prop where
  current : Bucket.Packed batchSize run.loader.pending (loads run.loader.window)
  later : ∀ window, run.loader.window < window → loads window = []
  fired : ∀ window < run.loader.window, ∃ buckets, Bucket.Packed batchSize buckets (loads window) ∧
    (run.launched window).Subperm (buckets.map (Flight.start window))

variable {loads : Nat → List Waiter}

theorem Collected.quiet (collected : before.Collected batchSize loads)
    (pending : after.loader.pending = before.loader.pending)
    (accepted : after.accepted = before.accepted)
    (closed : after.loader.window = before.loader.window) (step : Step before after) :
    after.Collected batchSize fun window => loads window ++ arrivals window before after := by
  simp only [arrivals_eq_nil accepted, List.append_nil]
  refine ⟨?_, ?_, ?_⟩
  · rw [pending, closed]
    exact collected.current
  · rw [closed]
    exact collected.later
  · rw [closed]
    intro window past
    obtain ⟨buckets, packed, launched⟩ := collected.fired window past
    exact ⟨buckets, packed, (step.launched_subperm closed).trans launched⟩

theorem Collected.entered {waiter : Waiter} (collected : before.Collected batchSize loads)
    (fits : waiter.request.Fits batchSize)
    (pending : after.loader.pending = Bucket.enter batchSize waiter before.loader.pending)
    (accepted : after.accepted = before.accepted ++ [waiter])
    (closed : after.loader.window = before.loader.window) (flown : after.flown = before.flown) :
    after.Collected batchSize fun window => loads window ++ arrivals window before after := by
  have here : arrivals before.loader.window before after = [waiter] := by
    simp [arrivals, accepted]
  have elsewhere : ∀ window, before.loader.window ≠ window → arrivals window before after = [] :=
    fun window other => if_neg other
  refine ⟨?_, ?_, ?_⟩
  · rw [pending, closed, here]
    exact collected.current.enter fits
  · rw [closed]
    intro window past
    rw [elsewhere window (Nat.ne_of_lt past), List.append_nil]
    exact collected.later window past
  · rw [closed]
    intro window past
    rw [elsewhere window (Nat.ne_of_gt past), List.append_nil, launched, flown]
    exact collected.fired window past

theorem Collected.fire (collected : before.Collected batchSize loads)
    (flying : ∀ flight ∈ before.flown, flight.window < before.loader.window)
    (loader : after.loader = before.loader.fire) (calls : after.calls = before.calls)
    (accepted : after.accepted = before.accepted) :
    after.Collected batchSize fun window => loads window ++ arrivals window before after := by
  simp only [arrivals_eq_nil accepted, List.append_nil]
  have flown : after.flown.Perm
      (before.flown ++ before.loader.pending.map (Flight.start before.loader.window)) := by
    simp only [LoaderRun.flown, loader, calls, Loader.fire, List.append_assoc]
    exact .append_left _ List.perm_append_comm
  have launches := fun window => flown.filter (·.startsIn window)
  simp only [List.filter_append] at launches
  have next : after.loader.window = before.loader.window + 1 := by rw [loader, Loader.fire]
  have emptied : after.loader.pending = [] := by rw [loader, Loader.fire]
  refine ⟨?_, ?_, ?_⟩
  · rw [emptied, next, collected.later _ (Nat.lt_succ_self _)]
    exact Bucket.packed_nil batchSize
  · rw [next]
    exact fun window past => collected.later window (Nat.lt_of_succ_lt past)
  · rw [next]
    intro window past
    rcases Nat.lt_or_eq_of_le (Nat.le_of_lt_succ past) with earlier | rfl
    · obtain ⟨buckets, packed, launched⟩ := collected.fired window earlier
      refine ⟨buckets, packed, ?_⟩
      have none : (before.loader.pending.map (Flight.start before.loader.window)).filter
          (·.startsIn window) = [] := by
        simp [List.filter_eq_nil_iff, Flight.start, Flight.startsIn, Nat.ne_of_gt earlier]
      have kept := launches window
      rw [none, List.append_nil] at kept
      exact kept.subperm.trans launched
    · refine ⟨before.loader.pending, collected.current, ?_⟩
      have none : before.flown.filter (·.startsIn before.loader.window) = [] :=
        List.filter_eq_nil_iff.mpr fun flight member => by
          simp [Flight.startsIn, Nat.ne_of_lt (flying flight member)]
      have kept := launches before.loader.window
      rw [none, List.nil_append] at kept
      exact kept.subperm.trans List.filter_sublist.subperm

theorem Collected.step (collected : before.Collected batchSize loads)
    (size : before.loader.batchSize = batchSize)
    (flying : ∀ flight ∈ before.flown, flight.window < before.loader.window)
    (step : Step before after) :
    after.Collected batchSize fun window => loads window ++ arrivals window before after := by
  have taken := step
  cases step with
  | atOnce _ => exact collected.quiet rfl (by simp [accepted]) rfl taken
  | idle | more _ _ | ended _ _ | aborted _ _ => exact collected.quiet rfl rfl rfl taken
  | entered asks fits =>
      subst size
      exact collected.entered ⟨asks, fits⟩ rfl (by simp [accepted]) rfl rfl
  | fired _ => exact collected.fire flying rfl rfl rfl

theorem collected (batchSize : Nat) (events : List LoaderEvent) :
    (of batchSize events).Collected batchSize fun window =>
      acceptedIn window (start batchSize) events := by
  induction events using List.reverseRecOn with
  | nil =>
      exact ⟨Bucket.packed_nil batchSize, fun _ _ => rfl,
        fun window past => absurd past (Nat.not_lt_zero window)⟩
  | append_singleton events event ih =>
      have flying := window_lt batchSize events
      have next := ih.step (of_batchSize batchSize events) flying (step_spec _ event)
      simp only [acceptedIn_concat, of_concat]
      exact next

theorem Step.openings_subset (step : Step before after) (window : Nat) (key : BatchKey) :
    before.openings window key ⊆ after.openings window key :=
  (step.calls_extends.sublist.filter _).subset

theorem opening_of_flown (batchSize : Nat) (events : List LoaderEvent) :
    ∀ flight ∈ (of batchSize events).flown, flight.drain.query.cursor = none ∨
      ∃ opening ∈ (of batchSize events).openings flight.window flight.bucket.key,
        opening.flight.bucket = flight.bucket := by
  refine of_induction (motive := fun run => ∀ flight ∈ run.flown,
    flight.drain.query.cursor = none ∨ ∃ opening ∈ run.openings flight.window flight.bucket.key,
      opening.flight.bucket = flight.bucket) (by simp [start, flown]) ?_ events
  intro before after _ held step flight member
  have kept := step.openings_subset
  rcases step.mem_flown member with old | ⟨bucket, _, rfl, _⟩ |
    ⟨origin, old, reply, drain, received, rfl, called⟩
  · rcases held flight old with first | ⟨opening, made, same⟩
    · exact .inl first
    · exact .inr ⟨opening, kept _ _ made, same⟩
  · exact .inl rfl
  · rcases held origin old with first | ⟨opening, made, same⟩
    · refine .inr ⟨⟨origin, reply⟩, ?_, rfl⟩
      simp [openings, Flight.startsIn, called, first]
    · exact .inr ⟨opening, kept _ _ made, same⟩

theorem opening_of_call (batchSize : Nat) (events : List LoaderEvent) :
    ∀ call ∈ (of batchSize events).calls,
      ∃ opening ∈ (of batchSize events).openings call.flight.window call.flight.bucket.key,
        opening.flight.bucket = call.flight.bucket := by
  intro call called
  rcases opening_of_flown batchSize events call.flight (mem_flown.mpr (.inr ⟨call, called, rfl⟩))
    with first | begun
  · refine ⟨call, ?_, rfl⟩
    simp [openings, Flight.startsIn, called, first]
  · exact begun

theorem filled (batchSize : Nat) (events : List LoaderEvent) :
    ∀ bucket ∈ (of batchSize events).buckets, bucket.Filled batchSize :=
  bucket_induction (fun _ fits => Bucket.filled_opened fits)
    (fun filled fits takes => filled.join fits takes) events

theorem length_openings_le (batchSize : Nat) (events : List LoaderEvent) (window : Nat)
    (key : BatchKey) : ((of batchSize events).openings window key).length ≤
      1 + (((acceptedIn window (start batchSize) events).filter (·.key = key)).map
        (·.request.distinctIds)).sum / batchSize := by
  let run := of batchSize events
  have begun : ((run.openings window key).map (·.flight)).Sublist
      ((run.launched window).filter (·.bucket.key = key)) := by
    have made : (run.openings window key).map (·.flight) =
        (((run.calls.map (·.flight)).filter (·.startsIn window)).filter
          (·.bucket.key = key)) := by
      rw [openings, List.filter_filter, List.filter_map]
      refine congrArg _ (List.filter_congr fun call _ => ?_)
      simp [Bool.and_comm]
    rw [made, launched, flown, List.filter_append, List.filter_append]
    exact List.sublist_append_right _ _
  have counted := begun.length_le
  rw [List.length_map] at counted
  refine Nat.le_trans counted ?_
  have flying := window_lt batchSize events
  have collected := collected batchSize events
  rcases Nat.lt_or_ge window run.loader.window with past | ahead
  · obtain ⟨buckets, packed, launched⟩ := collected.fired window past
    refine Nat.le_trans (launched.filter _).length_le (Nat.le_trans (Nat.le_of_eq ?_)
      (packed.length_le key))
    rw [List.filter_map, List.length_map]
    rfl
  · have none : run.launched window = [] := List.filter_eq_nil_iff.mpr fun flight member => by
      have fired := Nat.lt_of_lt_of_le (flying flight member) ahead
      simp [Flight.startsIn, Nat.ne_of_lt fired]
    simp [none]

/-- Every bucket asks for what its loads ask for, which is less than two batches of ids,
and of the buckets of a key at most one has room; so no query asks for more, every query
was begun, and few are begun: one, and one for each full batch of ids that the loads of
its key and window ask for. -/
theorem bounded_batches (batchSize : Nat) (events : List LoaderEvent) :
    let run := of batchSize events
    (∀ bucket ∈ run.buckets, bucket.Merged ∧
      1 ≤ bucket.batch.ids.size ∧ bucket.batch.ids.size ≤ 2 * batchSize - 1) ∧
    (∀ key, (run.loader.pending.filter fun bucket =>
      bucket.key = key ∧ bucket.batch.hasRoom batchSize).length ≤ 1) ∧
    (∀ call ∈ run.calls,
      (∃ ids : List String, call.exchange.query.statement.parameters = [⟨"@ids", .texts ids⟩] ∧
        ids.Nodup ∧ 1 ≤ ids.length ∧ ids.length < 2 * batchSize) ∧
      ∃ opening ∈ run.openings call.flight.window call.flight.bucket.key,
        opening.flight.bucket = call.flight.bucket) ∧
    ∀ window key, (run.openings window key).length ≤
      1 + (((acceptedIn window (start batchSize) events).filter (·.key = key)).map
        (·.request.distinctIds)).sum / batchSize := by
  intro run
  refine ⟨?_, ?_, ?_, length_openings_le batchSize events⟩
  · intro bucket member
    have filled := filled batchSize events bucket member
    exact ⟨filled.merged, filled.occupied, filled.bounded⟩
  · intro key
    exact Bucket.length_hasRoom_le (collected batchSize events).current.apart key
  · intro call called
    have member : call.flight ∈ run.flown := mem_flown.mpr (.inr ⟨call, called, rfl⟩)
    have filled := filled batchSize events _ (mem_buckets_of_mem_flown member)
    have occupied := filled.occupied
    have bounded := filled.bounded
    refine ⟨⟨call.flight.bucket.batch.ids.names, ?_, NameSet.nodup_names _, occupied, ?_⟩,
      opening_of_call batchSize events call called⟩
    · rw [StoreCall.exchange, query_eq batchSize events _ member]
      rfl
    · have : call.flight.bucket.batch.ids.names.length = call.flight.bucket.batch.ids.size := rfl
      omega

end LoaderRun

end DocGraph
