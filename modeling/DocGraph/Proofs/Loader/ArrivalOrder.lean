import DocGraph.Proofs.Fetch.Alone
import DocGraph.Proofs.Loader.Arrivals
import DocGraph.Proofs.Loader.Memoryless

/-!
# In which order loads arrive

Take the loads of one window, such that the loads of each key leave room in a batch. Over a
store without memory that does not give up, it makes no difference in which order they
arrive: the same queries are made, one for each key, and every load gets the same answer
by the same calls.
-/

namespace DocGraph

open Json

theorem Bucket.reply_of_mem_answers {bucket : Bucket} {result : Except StoreError (List Value)}
    {given : Answer} (answered : given ∈ bucket.answers result) :
    given.reply = given.waiter.request.replyFrom result := by
  obtain ⟨waiter, _, rfl⟩ := List.mem_map.mp answered
  cases result <;> rfl

/-- A window of a run that has fired, where all calls were answered by a store without
memory. -/
structure Flush (answer : StoreQuery → StoreReply) (batchSize : Nat) where
  events : List LoaderEvent
  window : Nat
  fired : window < (LoaderRun.of batchSize events).loader.window
  answered : (LoaderRun.of batchSize events).AnsweredBy answer

/-- Loads of which those of one key leave room in a batch, and of which those that name one
context carry one context. -/
structure Load.Roomy (batchSize : Nat) (loads : List Load) : Prop where
  contexts : ∀ left ∈ loads, ∀ right ∈ loads, left.context.id = right.context.id →
    left.context = right.context
  room : ∀ load ∈ loads, (together load.key (sharing loads load.key)).ids.size < batchSize

namespace Load

variable {batchSize : Nat} {loads others : List Load} {load : Load} {key : BatchKey}

theorem sharing_perm (reordered : loads.Perm others) (key : BatchKey) :
    (sharing loads key).Perm (sharing others key) :=
  reordered.filter _

theorem together_sharing_of_perm (reordered : loads.Perm others) (key : BatchKey) :
    together key (sharing loads key) = together key (sharing others key) :=
  together_congr fun _ => (sharing_perm reordered key).mem_iff

theorem Roomy.of_perm (roomy : Roomy batchSize loads) (reordered : loads.Perm others) :
    Roomy batchSize others where
  contexts left leftIn right rightIn :=
    roomy.contexts left (reordered.mem_iff.mpr leftIn) right (reordered.mem_iff.mpr rightIn)
  room load member := by
    rw [← together_sharing_of_perm reordered]
    exact roomy.room load (reordered.mem_iff.mpr member)

theorem Roomy.distinctIds_lt (roomy : Roomy batchSize loads) (member : load ∈ loads)
    (asks : load.request.ids ≠ []) : load.request.distinctIds < batchSize := by
  refine Nat.lt_of_le_of_lt (NameSet.size_le_of_subset fun id asked => ?_) (roomy.room load member)
  exact mem_together_ids.mpr
    ⟨load, mem_sharing.mpr ⟨member, rfl, asks⟩, NameSet.mem_ofList.mp asked⟩

end Load

namespace Flush

variable {answer : StoreQuery → StoreReply} {batchSize : Nat} (flush : Flush answer batchSize)

def run : LoaderRun := .of batchSize flush.events

def callers : List Caller := LoaderRun.callersIn flush.window (.start batchSize) flush.events

/-- What is asked for while the window is open, in the order of arrival. -/
def loads : List Load := flush.callers.map Caller.load

def issued : List StoreQuery := (flush.run.launched flush.window).map (·.drain.query)

def issuedFor (key : BatchKey) : List StoreQuery :=
  ((flush.run.launched flush.window).filter (·.bucket.key = key)).map (·.drain.query)

def Complete : Prop := ∀ flight ∈ flush.run.loader.flights, flight.window ≠ flush.window

end Flush

namespace LoaderRun

def exchangesFor (run : LoaderRun) (caller : Caller) : List Exchange :=
  match caller.receipt with
  | .answered _ => []
  | .waiting ticket => (run.callsFor ticket).map (·.exchange)

end LoaderRun

namespace Flush

variable {answer : StoreQuery → StoreReply} {batchSize : Nat} {flush : Flush answer batchSize}
  {load : Load} {key : BatchKey} {caller : Caller} {waiter : Waiter} {bucket : Bucket}
  {flight : Flight}

theorem arrived (member : caller ∈ flush.callers) : caller ∈ flush.run.callers :=
  LoaderRun.callersIn_subset _ _ _ member

theorem mem_loads : load ∈ flush.loads ↔ ∃ caller ∈ flush.callers, caller.load = load :=
  List.mem_map

/-- What the window has taken in, by what was asked. -/
def accepted (flush : Flush answer batchSize) : List Waiter :=
  LoaderRun.acceptedIn flush.window (.start batchSize) flush.events

theorem load_mem_sharing (taken : waiter ∈ flush.accepted) :
    waiter.load ∈ Load.sharing flush.loads waiter.key := by
  obtain ⟨caller, member, receipt, same⟩ := LoaderRun.mem_acceptedIn.mp taken
  refine Load.mem_sharing.mpr ⟨mem_loads.mpr ⟨caller, member, same⟩, rfl, ?_⟩
  rcases LoaderRun.callers_of batchSize flush.events caller (arrived member) with
    ⟨_, settled, _⟩ | ⟨_, _, asks, _⟩
  · rw [receipt] at settled
    cases settled
  · rwa [← same]

theorem receipt_cases (roomy : Load.Roomy batchSize flush.loads) (member : caller ∈ flush.callers) :
    (caller.request.ids = [] ∧ caller.receipt = .answered (.ok [])) ∨
    (caller.request.ids ≠ [] ∧ ∃ ticket, caller.receipt = .waiting ticket ∧
      ⟨ticket, caller.context, caller.request⟩ ∈ flush.accepted) := by
  rcases LoaderRun.callers_of batchSize flush.events caller (arrived member) with
    ⟨reply, receipt, settled⟩ | ⟨ticket, receipt, asks, _⟩
  · cases settled with
    | empty none => exact .inl ⟨none, receipt⟩
    | tooMany asks exceeds =>
        have fits := roomy.distinctIds_lt (mem_loads.mpr ⟨caller, member, rfl⟩) asks
        exact absurd exceeds (Nat.lt_asymm fits)
  · exact .inr ⟨asks, ticket, receipt, LoaderRun.mem_acceptedIn.mpr ⟨caller, member, receipt, rfl⟩⟩

theorem exists_accepted (roomy : Load.Roomy batchSize flush.loads)
    (shares : load ∈ Load.sharing flush.loads key) :
    ∃ waiter ∈ flush.accepted, waiter.load = load ∧ waiter.key = key := by
  obtain ⟨asked, rfl, asks⟩ := Load.mem_sharing.mp shares
  obtain ⟨caller, member, rfl⟩ := mem_loads.mp asked
  rcases receipt_cases roomy member with ⟨none, _⟩ | ⟨_, ticket, _, taken⟩
  · exact absurd none asks
  · exact ⟨_, taken, rfl, rfl⟩

section Launched

/-- The queries that a window begins are those of buckets that its loads filled. -/
theorem buckets_of_launched (flush : Flush answer batchSize) : ∃ buckets,
    Bucket.Packed batchSize buckets flush.accepted ∧
      (flush.run.launched flush.window).Subperm (buckets.map (Flight.start flush.window)) :=
  (LoaderRun.collected batchSize flush.events).fired flush.window flush.fired

theorem exists_launched (flush : Flush answer batchSize)
    (lasting : ∀ query, answer query ≠ .aborted) (taken : waiter ∈ flush.accepted) :
    ∃ flight ∈ flush.run.launched flush.window, waiter ∈ flight.bucket.waiters := by
  refine LoaderRun.launched_of_accepted batchSize flush.events ?_ _ flush.fired waiter taken
  intro call made aborted
  exact lasting _ ((flush.answered call made).symm.trans aborted)

theorem load_mem_of_filled (filled : bucket.Filled batchSize)
    (within : bucket.waiters ⊆ flush.accepted) (carried : waiter ∈ bucket.waiters) :
    waiter.load ∈ Load.sharing flush.loads bucket.key := by
  rw [← filled.merged.key waiter carried]
  exact load_mem_sharing (within carried)

theorem hasRoom_of_filled (roomy : Load.Roomy batchSize flush.loads)
    (filled : bucket.Filled batchSize) (within : bucket.waiters ⊆ flush.accepted) :
    bucket.batch.hasRoom batchSize = true := by
  obtain ⟨id, held⟩ := List.exists_mem_of_length_pos filled.occupied
  obtain ⟨opener, joined, _⟩ := (filled.merged.ids id).mp held
  obtain ⟨asked, same, _⟩ := Load.mem_sharing.mp (load_mem_of_filled filled within joined)
  have room := roomy.room opener.load asked
  rw [same] at room
  refine decide_eq_true (Nat.lt_of_le_of_lt (NameSet.size_le_of_subset fun id held => ?_) room)
  obtain ⟨waiter, carried, asks⟩ := (filled.merged.ids id).mp held
  exact Load.mem_together_ids.mpr ⟨waiter.load, load_mem_of_filled filled within carried, asks⟩

/-- While the loads of a key leave room, no second bucket of the key is opened. -/
theorem length_launched_le (roomy : Load.Roomy batchSize flush.loads) (key : BatchKey) :
    ((flush.run.launched flush.window).filter (·.bucket.key = key)).length ≤ 1 := by
  obtain ⟨buckets, packed, launched⟩ := flush.buckets_of_launched
  have roomyBuckets : buckets.filter (·.key = key) =
      buckets.filter fun bucket => bucket.key = key ∧ bucket.batch.hasRoom batchSize := by
    refine List.filter_congr fun bucket member => ?_
    have within : bucket.waiters ⊆ flush.accepted := fun waiter carried =>
      packed.everyone.subset (List.mem_flatMap.mpr ⟨bucket, member, carried⟩)
    simp [hasRoom_of_filled roomy (packed.filled bucket member) within]
  calc ((flush.run.launched flush.window).filter (·.bucket.key = key)).length
    _ ≤ ((buckets.map (Flight.start flush.window)).filter (·.bucket.key = key)).length :=
      (launched.filter _).length_le
    _ = (buckets.filter (·.key = key)).length := by
      rw [List.filter_map, List.length_map]
      rfl
    _ ≤ 1 := by
      rw [roomyBuckets]
      exact Bucket.length_hasRoom_le packed.apart key

theorem launched_spec (member : flight ∈ flush.run.launched flush.window) :
    flight = .start flush.window flight.bucket ∧ flight.bucket.Filled batchSize ∧
      flight.bucket.waiters ⊆ flush.accepted := by
  obtain ⟨buckets, packed, launched⟩ := flush.buckets_of_launched
  obtain ⟨bucket, held, rfl⟩ := List.mem_map.mp (launched.subset member)
  exact ⟨rfl, packed.filled bucket held, fun waiter carried =>
    packed.everyone.subset (List.mem_flatMap.mpr ⟨bucket, held, carried⟩)⟩

theorem launched_alone (roomy : Load.Roomy batchSize flush.loads)
    (begun : flight ∈ flush.run.launched flush.window) (sameKey : flight.bucket.key = key) :
    (flush.run.launched flush.window).filter (·.bucket.key = key) = [flight] := by
  have member : flight ∈ (flush.run.launched flush.window).filter (·.bucket.key = key) :=
    List.mem_filter.mpr ⟨begun, decide_eq_true sameKey⟩
  obtain ⟨single, found⟩ := List.length_eq_one_iff.mp
    (Nat.le_antisymm (length_launched_le roomy key) (List.length_pos_of_mem member))
  rw [found] at member ⊢
  rw [List.mem_singleton.mp member]

/-- A flight carries all loads of its key, as no other does. -/
theorem carries_sharing (roomy : Load.Roomy batchSize flush.loads)
    (lasting : ∀ query, answer query ≠ .aborted)
    (begun : flight ∈ flush.run.launched flush.window) :
    load ∈ Load.sharing flush.loads flight.bucket.key ↔
      ∃ waiter ∈ flight.bucket.waiters, waiter.load = load := by
  refine ⟨fun shares => ?_, ?_⟩
  · obtain ⟨waiter, taken, same, key⟩ := exists_accepted roomy shares
    obtain ⟨other, begunToo, carried⟩ := flush.exists_launched lasting taken
    have sameKey := ((launched_spec begunToo).2.1.merged.key waiter carried).symm.trans key
    obtain rfl : flight = other := List.singleton_inj.mp
      ((launched_alone roomy begun rfl).symm.trans (launched_alone roomy begunToo sameKey))
    exact ⟨waiter, carried, same⟩
  · rintro ⟨waiter, carried, rfl⟩
    obtain ⟨_, filled, within⟩ := launched_spec begun
    exact load_mem_of_filled filled within carried

theorem context_of_launched (roomy : Load.Roomy batchSize flush.loads)
    (begun : flight ∈ flush.run.launched flush.window)
    (carried : waiter ∈ flight.bucket.waiters) :
    flight.bucket.context = waiter.context := by
  obtain ⟨_, filled, within⟩ := launched_spec begun
  have inside := LoaderRun.mem_buckets_of_mem_flown (List.mem_filter.mp begun).1
  obtain ⟨opener, first, context⟩ := LoaderRun.opener batchSize flush.events _ inside
  have opened : opener ∈ flight.bucket.waiters := List.mem_of_mem_head? first
  have asked : ∀ waiter ∈ flight.bucket.waiters, waiter.load ∈ flush.loads :=
    fun waiter carried => (Load.mem_sharing.mp (load_mem_sharing (within carried))).1
  have sameId : opener.context.id = waiter.context.id := congrArg BatchKey.contextId
    ((filled.merged.key opener opened).trans (filled.merged.key waiter carried).symm)
  rw [context]
  exact roomy.contexts opener.load (asked opener opened) waiter.load (asked waiter carried) sameId

/-- The one query of the key of a load asks for what all loads of the key ask for. -/
theorem launched_for (roomy : Load.Roomy batchSize flush.loads)
    (lasting : ∀ query, answer query ≠ .aborted) (taken : waiter ∈ flush.accepted) :
    ∃ flight ∈ flush.run.launched flush.window, waiter ∈ flight.bucket.waiters ∧
      (flush.run.launched flush.window).filter (·.bucket.key = waiter.key) = [flight] ∧
      flight.drain = .start flight.bucket.query ∧
      flight.bucket.query =
        (Load.together waiter.key (Load.sharing flush.loads waiter.key)).query waiter.context := by
  obtain ⟨flight, begun, carried⟩ := flush.exists_launched lasting taken
  obtain ⟨started, filled, _⟩ := launched_spec begun
  have merged := filled.merged
  have sameKey : flight.bucket.key = waiter.key := (merged.key waiter carried).symm
  have everyone : ∀ load, load ∈ Load.sharing flush.loads waiter.key ↔
      ∃ other ∈ flight.bucket.waiters, other.load = load := by
    intro load
    rw [← sameKey]
    exact carries_sharing roomy lasting begun
  refine ⟨flight, begun, carried, launched_alone roomy begun sameKey, ?_, ?_⟩
  · rw [started]
    rfl
  · rw [Bucket.query, context_of_launched roomy begun carried]
    refine Batch.query_congr ?_ ?_ ?_ _
    · exact merged.location_eq carried
    · refine NameSet.eq_of_mem_iff fun column => ?_
      rw [merged.columns, Load.mem_together_columns]
      simp only [everyone, exists_exists_and_eq_and]
      rfl
    · refine NameSet.eq_of_mem_iff fun id => ?_
      rw [merged.ids, Load.mem_together_ids]
      simp only [everyone, exists_exists_and_eq_and]
      rfl

theorem issuedFor_of_sharing (roomy : Load.Roomy batchSize flush.loads)
    (lasting : ∀ query, answer query ≠ .aborted) (shares : load ∈ Load.sharing flush.loads key) :
    flush.issuedFor key =
      [(Load.together key (Load.sharing flush.loads key)).query load.context] := by
  obtain ⟨waiter, taken, rfl, rfl⟩ := exists_accepted roomy shares
  obtain ⟨flight, _, _, only, started, query⟩ := launched_for roomy lasting taken
  rw [issuedFor, only, List.map_singleton, started]
  exact congrArg (fun query => [query]) query

theorem issuedFor_of_nobody (nobody : Load.sharing flush.loads key = []) :
    flush.issuedFor key = [] := by
  refine List.map_eq_nil_iff.mpr (List.eq_nil_iff_forall_not_mem.mpr fun flight member => ?_)
  obtain ⟨begun, same⟩ := List.mem_filter.mp member
  obtain ⟨_, filled, within⟩ := launched_spec begun
  obtain ⟨id, held⟩ := List.exists_mem_of_length_pos filled.occupied
  obtain ⟨waiter, carried, _⟩ := (filled.merged.ids id).mp held
  have shares := load_mem_of_filled filled within carried
  rw [of_decide_eq_true same, nobody] at shares
  cases shares

end Launched

section Replies

/-- A flight that is no longer under way has called for the loads that it carries. -/
theorem call_of_landed (begun : flight ∈ flush.run.launched flush.window)
    (carried : waiter ∈ flight.bucket.waiters) (landed : flight ∉ flush.run.loader.flights) :
    ∃ call ∈ flush.run.callsFor waiter.ticket, call.flight = flight := by
  rcases LoaderRun.mem_flown.mp (List.mem_filter.mp begun).1 with flying | ⟨call, made, rfl⟩
  · exact absurd flying landed
  · exact ⟨call, List.mem_filter.mpr ⟨made, List.any_eq_true.mpr
      ⟨waiter, carried, beq_self_eq_true _⟩⟩, rfl⟩

/-- What a load is answered with is the end of the query of its key. -/
theorem ends_of_replyOf {reply : LoadReply} (roomy : Load.Roomy batchSize flush.loads)
    (lasting : ∀ query, answer query ≠ .aborted) (member : caller ∈ flush.callers)
    (asks : caller.request.ids ≠ []) (replied : flush.run.replyOf caller = some reply) :
    ∃ result, reply = caller.request.replyFrom result ∧
      (Drain.start ((Load.together caller.load.key
        (Load.sharing flush.loads caller.load.key)).query caller.context)).EndsBy answer
          (flush.run.exchangesFor caller) result := by
  rcases receipt_cases roomy member with ⟨none, _⟩ | ⟨_, ticket, receipt, taken⟩
  · exact absurd none asks
  obtain ⟨flight, begun, carried, _, _, query⟩ := launched_for roomy lasting taken
  rcases LoaderRun.waits_or_replied batchSize flush.events (arrived member) receipt with
    ⟨_, waits⟩ | ⟨given, once, _, repliedToo⟩
  · rw [run, waits] at replied
    cases replied
  obtain rfl : given = reply := Option.some.inj (repliedToo.symm.trans replied)
  have among : ⟨⟨ticket, caller.context, caller.request⟩, given⟩ ∈ flush.run.answers := by
    refine List.mem_of_mem_filter (p := (·.waiter.ticket == ticket)) ?_
    rw [run, once.once]
    exact List.mem_singleton_self _
  have landed : flight ∉ flush.run.loader.flights := fun flying =>
    once.released flight.bucket (List.mem_append_right _ (List.mem_map_of_mem flying)) carried
  obtain ⟨bucket, result, answered, concluded⟩ :=
    (LoaderRun.foreseen batchSize flush.events lasting flush.answered).answered _ among
  obtain ⟨call, called, rfl⟩ := call_of_landed begun carried landed
  refine ⟨result, Bucket.reply_of_mem_answers answered, ?_⟩
  have ends := concluded.ends
  rw [← concluded.own call called, query] at ends
  rw [LoaderRun.exchangesFor, receipt]
  exact ends

/-- Once no query of the window is under way, all its loads are answered. -/
theorem replyOf_isSome (roomy : Load.Roomy batchSize flush.loads)
    (lasting : ∀ query, answer query ≠ .aborted) (complete : flush.Complete)
    (member : caller ∈ flush.callers) : (flush.run.replyOf caller).isSome := by
  rcases receipt_cases roomy member with ⟨_, receipt⟩ | ⟨_, ticket, receipt, taken⟩
  · simp [LoaderRun.replyOf, receipt]
  obtain ⟨flight, begun, carried, _⟩ := launched_for roomy lasting taken
  rcases LoaderRun.waits_or_replied batchSize flush.events (arrived member) receipt with
    ⟨waits, _⟩ | ⟨reply, _, _, replied⟩
  · have ofWindow : flight.window = flush.window := by
      rw [(launched_spec begun).1]
      rfl
    obtain ⟨call, called, rfl⟩ :=
      call_of_landed begun carried fun flying => complete flight flying ofWindow
    obtain ⟨_, bucket, _, split, once, _⟩ := waits.inOne
    have held := List.one_le_count_iff.mp once.ge
    have isOpen : bucket ∈ (LoaderRun.of batchSize flush.events).openBuckets := by simp [split]
    rcases List.mem_append.mp isOpen with pending | carriedOn
    · have none := (LoaderRun.traced batchSize flush.events).pending _
        (List.mem_flatMap.mpr ⟨bucket, pending, held⟩)
      rw [run, none] at called
      cases called
    · obtain ⟨other, flying, rfl⟩ := List.mem_map.mp carriedOn
      have course := (LoaderRun.foreseen batchSize flush.events lasting flush.answered).flying
        other flying _ held
      exact absurd ((course.own call called).2.symm.trans ofWindow) (complete other flying)
  · rw [run, replied]
    rfl

end Replies

/-- Two orders of arrival lead to the same queries, in whatever order. -/
theorem issued_perm {first second : Flush answer batchSize}
    (same : ∀ key, first.issuedFor key = second.issuedFor key) :
    first.issued.Perm second.issued := by
  let keyed (flight : Flight) : BatchKey × StoreQuery := (flight.bucket.key, flight.drain.query)
  have ofKey : ∀ (flush : Flush answer batchSize) (key : BatchKey),
      ((flush.run.launched flush.window).map keyed).filter (·.1 = key) =
        (flush.issuedFor key).map fun query => (key, query) := by
    intro flush key
    rw [issuedFor, List.filter_map, List.map_map]
    refine List.map_congr_left fun flight member => ?_
    have chosen : flight.bucket.key = key := by simpa [keyed] using (List.mem_filter.mp member).2
    simp [keyed, chosen]
  have pairs : ((first.run.launched first.window).map keyed).Perm
      ((second.run.launched second.window).map keyed) := by
    refine List.perm_iff_count.mpr fun pair => ?_
    have counted : ∀ list : List (BatchKey × StoreQuery),
        list.count pair = (list.filter (·.1 = pair.1)).count pair :=
      fun list => by rw [List.count_filter (by simp)]
    rw [counted, counted ((second.run.launched _).map keyed), ofKey, ofKey, same]
  have queries := pairs.map Prod.snd
  rw [List.map_map, List.map_map] at queries
  exact queries

section Reordered

variable {first second : Flush answer batchSize}

theorem issuedFor_of_reordered (roomy : Load.Roomy batchSize first.loads)
    (lasting : ∀ query, answer query ≠ .aborted) (reordered : first.loads.Perm second.loads)
    (shares : load ∈ Load.sharing first.loads key) :
    second.issuedFor key =
      [(Load.together key (Load.sharing first.loads key)).query load.context] := by
  rw [Load.together_sharing_of_perm reordered]
  exact issuedFor_of_sharing (roomy.of_perm reordered) lasting
    ((Load.sharing_perm reordered key).subset shares)

theorem reply_of_reordered {other : Caller} {reply otherReply : LoadReply}
    (roomy : Load.Roomy batchSize first.loads) (lasting : ∀ query, answer query ≠ .aborted)
    (reordered : first.loads.Perm second.loads) (member : caller ∈ first.callers)
    (memberToo : other ∈ second.callers) (same : caller.load = other.load)
    (replied : first.run.replyOf caller = some reply)
    (repliedToo : second.run.replyOf other = some otherReply) :
    reply = otherReply ∧ first.run.exchangesFor caller = second.run.exchangesFor other := by
  have roomyToo := roomy.of_perm reordered
  obtain ⟨context, request, receipt⟩ := caller
  obtain ⟨_, _, receiptToo⟩ := other
  cases same
  by_cases empty : request.ids = []
  · have atOnce := (receipt_cases roomy member).resolve_right fun waits => waits.1 empty
    have atOnceToo := (receipt_cases roomyToo memberToo).resolve_right fun waits => waits.1 empty
    obtain rfl : receipt = _ := atOnce.2
    obtain rfl : receiptToo = _ := atOnceToo.2
    cases replied
    cases repliedToo
    exact ⟨rfl, rfl⟩
  · obtain ⟨result, rfl, ends⟩ := ends_of_replyOf roomy lasting member empty replied
    obtain ⟨resultToo, rfl, endsToo⟩ := ends_of_replyOf roomyToo lasting memberToo empty repliedToo
    rw [← Load.together_sharing_of_perm reordered] at endsToo
    obtain ⟨calls, rfl⟩ := ends.unique endsToo
    exact ⟨rfl, calls⟩

end Reordered

/-- What two windows agree in: their queries and their answers. -/
structure Agree (first second : Flush answer batchSize) : Prop where
  /-- The one query for a load is for all columns and all ids of the loads of its key, in a page
  for all ids. -/
  oneQuery : ∀ load ∈ first.loads, load.request.ids ≠ [] →
    let query := (Load.together load.key (Load.sharing first.loads load.key)).query load.context
    first.issuedFor load.key = [query] ∧ second.issuedFor load.key = [query]
  noQuery : ∀ key, Load.sharing first.loads key = [] →
    first.issuedFor key = [] ∧ second.issuedFor key = []
  issued : first.issued.Perm second.issued
  replies : ∀ caller ∈ first.callers, ∀ other ∈ second.callers, caller.load = other.load →
    ∀ reply, first.run.replyOf caller = some reply →
      ∀ otherReply, second.run.replyOf other = some otherReply →
        reply = otherReply ∧ first.run.exchangesFor caller = second.run.exchangesFor other
  answered : first.Complete → ∀ caller ∈ first.callers, (first.run.replyOf caller).isSome
  answeredToo : second.Complete → ∀ caller ∈ second.callers, (second.run.replyOf caller).isSome

/-- Loads of one window arrive in two orders, over a store without memory that does not give
up. As long as the loads of each key leave room in a batch, either order leads to the same
queries and answers. -/
theorem order_of_arrival_free {first second : Flush answer batchSize}
    (lasting : ∀ query, answer query ≠ .aborted) (roomy : Load.Roomy batchSize first.loads)
    (reordered : first.loads.Perm second.loads) : Agree first second := by
  have roomyToo := roomy.of_perm reordered
  have one : ∀ load key, load ∈ Load.sharing first.loads key →
      let query := (Load.together key (Load.sharing first.loads key)).query load.context
      first.issuedFor key = [query] ∧ second.issuedFor key = [query] :=
    fun load key shares =>
      ⟨issuedFor_of_sharing roomy lasting shares,
        issuedFor_of_reordered roomy lasting reordered shares⟩
  have none : ∀ key, Load.sharing first.loads key = [] →
      first.issuedFor key = [] ∧ second.issuedFor key = [] := by
    intro key nobody
    refine ⟨issuedFor_of_nobody nobody, issuedFor_of_nobody ?_⟩
    exact List.perm_nil.mp (nobody ▸ (Load.sharing_perm reordered key).symm)
  exact {
    oneQuery := fun load asked asks => one load load.key (Load.mem_sharing.mpr ⟨asked, rfl, asks⟩)
    noQuery := none
    issued := by
      apply issued_perm
      intro key
      cases shared : Load.sharing first.loads key with
      | nil => rw [(none key shared).1, (none key shared).2]
      | cons load _ =>
          have both := one load key (by simp [shared])
          rw [both.1, both.2]
    replies := by
      intro caller member other memberToo same reply replied otherReply repliedToo
      exact reply_of_reordered roomy lasting reordered member memberToo same replied repliedToo
    answered := fun complete _ => replyOf_isSome roomy lasting complete
    answeredToo := fun complete _ => replyOf_isSome roomyToo lasting complete }

namespace TwoKeys

def context : RequestContext := ⟨"req", .null⟩

def names : Load := ⟨context, ⟨"Thing", ⟨"db", "Things"⟩, ["name"], ["2", "1"]⟩⟩

def ages : Load := ⟨context, ⟨"Thing", ⟨"db", "Things"⟩, ["age"], ["3", "2"]⟩⟩

def owner : Load := ⟨context, ⟨"Owner", ⟨"db", "Owners"⟩, [], ["9"]⟩⟩

def row (id : String) : Value := .object [("id", .string id)]

def respond (query : StoreQuery) : StoreReply :=
  if query.location.container = "Things" then .page ⟨[row "1", row "3"], none⟩
  else .page ⟨[row "9"], none⟩

def arriving (loads : List Load) (replies : List StoreReply) : List LoaderEvent :=
  loads.map (fun load => .load load.context load.request) ++ .fire :: replies.map (.reply 0)

def things : StoreReply := .page ⟨[row "1", row "3"], none⟩

def owners : StoreReply := .page ⟨[row "9"], none⟩

def first : Flush respond 4 where
  events := arriving [names, ages, owner] [things, owners]
  window := 0
  fired := Nat.lt_add_one 0
  answered := List.forall_mem_cons.mpr ⟨rfl, List.forall_mem_cons.mpr ⟨rfl, nofun⟩⟩

def second : Flush respond 4 where
  events := arriving [owner, ages, names] [owners, things]
  window := 0
  fired := Nat.lt_add_one 0
  answered := List.forall_mem_cons.mpr ⟨rfl, List.forall_mem_cons.mpr ⟨rfl, nofun⟩⟩

theorem roomy_first : Load.Roomy 4 first.loads where
  contexts := by
    have loads : first.loads = [names, ages, owner] := rfl
    simp [loads, names, ages, owner]
  room := List.forall_mem_cons.mpr ⟨by decide, List.forall_mem_cons.mpr ⟨by decide,
    List.forall_mem_cons.mpr ⟨by decide, nofun⟩⟩⟩

theorem order_of_arrival_free_owner : ∃ query : StoreQuery,
    query.statement.parameters = [⟨"@ids", .texts ["1", "2", "3"]⟩] ∧ query.limit = some 3 ∧
    first.issuedFor names.key = [query] ∧ second.issuedFor names.key = [query] := by
  have lasting : ∀ query, respond query ≠ .aborted := by
    intro query
    unfold respond
    split <;> nofun
  have reordered : first.loads.Perm second.loads := by
    change [names, ages, owner].Perm [owner, ages, names]
    exact (List.reverse_perm [names, ages, owner]).symm
  have one := (order_of_arrival_free lasting roomy_first reordered).oneQuery names
    List.mem_cons_self (List.cons_ne_nil _ _)
  exact ⟨_, rfl, rfl, one⟩

end TwoKeys

namespace GivenUp

def context : RequestContext := ⟨"req", .null⟩

def lost : Load := ⟨context, ⟨"T", ⟨"db", "A"⟩, [], ["1"]⟩⟩

def found : Load := ⟨context, ⟨"T", ⟨"db", "B"⟩, [], ["1"]⟩⟩

def row : Value := .object [("id", .string "1")]

def respond (query : StoreQuery) : StoreReply :=
  if query.location.container = "A" then .aborted else .page ⟨[row], none⟩

def first : Flush respond 100 where
  events := TwoKeys.arriving [lost, found] [.aborted]
  window := 0
  fired := Nat.lt_add_one 0
  answered := List.forall_mem_cons.mpr ⟨rfl, nofun⟩

def second : Flush respond 100 where
  events := TwoKeys.arriving [found, lost] [.page ⟨[row], none⟩, .aborted]
  window := 0
  fired := Nat.lt_add_one 0
  answered := List.forall_mem_cons.mpr ⟨rfl, List.forall_mem_cons.mpr ⟨rfl, nofun⟩⟩

theorem roomy_first : Load.Roomy 100 first.loads where
  contexts := by
    have loads : first.loads = [lost, found] := rfl
    simp [loads, lost, found]
  room := List.forall_mem_cons.mpr ⟨by decide, List.forall_mem_cons.mpr ⟨by decide, nofun⟩⟩

/-- When the store gives up on the query of one load, it matters whether the other load came
before: after it, the other query is never made. -/
theorem order_of_arrival_matters :
    Load.Roomy 100 first.loads ∧ first.loads.Perm second.loads ∧
    first.Complete ∧ second.Complete ∧
    (first.run.openings 0 found.key).length = 0 ∧
    (second.run.openings 0 found.key).length = 1 ∧
    ¬∀ caller ∈ first.callers, ∀ other ∈ second.callers, caller.load = other.load →
      first.run.replyOf caller = second.run.replyOf other := by
  refine ⟨roomy_first, .swap found lost [], nofun, nofun, rfl, rfl, fun same => ?_⟩
  have dropped : first.run.replyOf ⟨context, found.request, .waiting 1⟩ =
      some (.error .dropped) := rfl
  have answered : second.run.replyOf ⟨context, found.request, .waiting 0⟩ =
      some (.ok [some row]) := rfl
  have equal := same ⟨context, found.request, .waiting 1⟩ (.tail _ (.head _))
    ⟨context, found.request, .waiting 0⟩ (.head _) rfl
  rw [dropped, answered] at equal
  cases equal

end GivenUp

end Flush

end DocGraph
