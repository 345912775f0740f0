import DocGraph.Proofs.Loader.Documents
import DocGraph.Proofs.Loader.Serving

namespace DocGraph

open Json

/-- A page goes on where the rows before it ended in the result of its batch over
fixed documents, and the result ends with a page without a next cursor. -/
def StoreCall.Serves (documents : Documents) (call : StoreCall) : Prop :=
  ∀ page, call.reply = .page page → ∃ rest,
    call.flight.drain.rows ++ page.items ++ rest = call.flight.bucket.batch.resultFrom documents ∧
      (page.nextCursor = none → rest = [])

/-- Pages that hand out rows one after the other, where no page hands back the
cursor it was asked with. -/
inductive PageChain : Option String → List StorePage → List Value → Prop
  | last {cursor : Option String} {page : StorePage} (final : page.nextCursor = none) :
      PageChain cursor [page] page.items
  | more {cursor : Option String} {next : String} {page : StorePage} {pages : List StorePage}
      {rows : List Value} (goesOn : page.nextCursor = some next) (fresh : cursor ≠ some next)
      (rest : PageChain (some next) pages rows) :
      PageChain cursor (page :: pages) (page.items ++ rows)

theorem Batch.statement_eq (batch : Batch) : batch.statement = {
    text := "SELECT " ++ Column.projection batch.columns.names ++
      " FROM c WHERE ARRAY_CONTAINS(@ids, c.id)"
    parameters := [⟨"@ids", .texts batch.ids.names⟩] } := by
  have id : Column.reference Column.id = "c.id" := by decide
  simp [Batch.statement, id, Column.document, Batch.idsParameter, String.append_assoc]

theorem Bucket.Landed.rows_eq {bucket : Bucket} {calls : List StoreCall} {rows : List Value}
    {documents : Documents} (landed : bucket.Landed calls rows)
    (serves : ∀ call ∈ calls, call.Serves documents) :
    rows = bucket.batch.resultFrom documents := by
  obtain ⟨call, member, page, replied, final, rfl⟩ := landed.completed
  obtain ⟨rest, whole, ends⟩ := serves call member page replied
  rw [← landed.carrier call member, ← whole, ends final, List.append_nil]

namespace LoaderRun

def replyTo (run : LoaderRun) (place : Nat) : Option LoadReply :=
  run.callers[place]?.bind run.replyOf

/-- A flight that has the loader for itself lands with the rows of its pages. -/
theorem answers_of_pages {cursor : Option String} {pages : List StorePage} {rows : List Value}
    (chain : PageChain cursor pages rows) {run : LoaderRun} {flight : Flight}
    (only : run.loader.flights = [flight]) (place : flight.drain.query.cursor = cursor) :
    ((pages.map fun page => LoaderEvent.reply 0 (.page page)).foldl step run).answers =
        run.answers ++ flight.bucket.answers (.ok (flight.drain.rows ++ rows)) ∧
      ((pages.map fun page => LoaderEvent.reply 0 (.page page)).foldl step run).callers =
        run.callers := by
  induction chain generalizing run flight with
  | last final =>
      simp [step, only, Loader.receive, Drain.receive, Drain.absorb, final]
  | @more cursor next page pages rows goesOn fresh rest ih =>
      rw [List.map_cons, List.foldl_cons]
      have stepped : run.step (.reply 0 (.page page)) = { run with
          loader := { run.loader with flights := [{ flight with
            drain := ⟨{ flight.drain.query with cursor := some next },
              flight.drain.rows ++ page.items⟩ }] }
          calls := run.calls ++ [⟨flight, .page page⟩] } := by
        simp [step, only, Loader.receive, Drain.receive, Drain.absorb, goesOn, place, fresh]
      rw [stepped]
      simpa using @ih { run with
          loader := { run.loader with flights := [{ flight with
            drain := ⟨{ flight.drain.query with cursor := some next },
              flight.drain.rows ++ page.items⟩ }] }
          calls := run.calls ++ [⟨flight, .page page⟩] } _ rfl rfl

/-- A run of one load only: it arrives, its window fires, and pages come in. -/
def alone (batchSize : Nat) (context : RequestContext) (request : LoadRequest)
    (pages : List StorePage) : LoaderRun :=
  of batchSize (.load context request :: .fire ::
    pages.map fun page => LoaderEvent.reply 0 (.page page))

/-- A load on its own is answered with the rows of its own batch. -/
theorem replyTo_alone {batchSize : Nat} {context : RequestContext} {request : LoadRequest}
    {pages : List StorePage} {rows : List Value} (asks : request.ids ≠ [])
    (fits : request.distinctIds ≤ batchSize) (chain : PageChain none pages rows) :
    (alone batchSize context request pages).replyTo 0 =
      some (.ok (Batch.rowsFor rows request.ids)) := by
  let waiter : Waiter := ⟨0, context, request⟩
  let fired : LoaderRun := {
    loader := {
      batchSize, window := 1, accepted := 1, flights := [Flight.start 0 (.opened waiter)] }
    callers := [⟨context, request, .waiting 0⟩] }
  have opening : (((start batchSize).step (.load context request)).step .fire) = fired := by
    have waiting := (start batchSize).loader.load_waiting context asks fits
    simp only [start] at waiting
    simp [start, step, waiting, Bucket.enter, Loader.fire, fired, waiter]
  obtain ⟨answers, callers⟩ := answers_of_pages chain
    (rfl : fired.loader.flights = [_]) rfl
  rw [alone, of, List.foldl_cons, List.foldl_cons, opening, replyTo, callers]
  change replyOf _ ⟨context, request, .waiting 0⟩ = _
  simp only [replyOf, answers]
  simp [fired, waiter, Bucket.answers, Bucket.opened, Flight.start, Drain.start]

theorem replyTo_alone_empty {batchSize : Nat} {context : RequestContext} {request : LoadRequest}
    {pages : List StorePage} (empty : request.ids = []) :
    (alone batchSize context request pages).replyTo 0 = some (.ok []) := by
  have idle : ∀ (pages : List StorePage) (run : LoaderRun), run.loader.flights = [] →
      (pages.map fun page => LoaderEvent.reply 0 (.page page)).foldl step run = run := by
    intro pages
    induction pages with
    | nil => exact fun _ _ => rfl
    | cons page rest ih =>
        intro run none
        have stays : run.step (.reply 0 (.page page)) = run := by simp [step, none]
        rw [List.map_cons, List.foldl_cons, stays]
        exact ih run none
  have opening : (((start batchSize).step (.load context request)).step .fire) =
      { start batchSize with callers := [⟨context, request, .answered (.ok [])⟩] } := by
    simp [start, step, Loader.load, empty]
  rw [alone, of, List.foldl_cons, List.foldl_cons, opening, idle pages _ rfl]
  rfl

/-- A load that was answered with rows later on was served by a bucket. -/
theorem served_of_replyOf {batchSize : Nat} {events : List LoaderEvent} {caller : Caller}
    {values : List (Option Value)} {ticket : Nat}
    (arrived : caller ∈ (of batchSize events).callers) (receipt : caller.receipt = .waiting ticket)
    (replied : (of batchSize events).replyOf caller = some (.ok values)) :
    (of batchSize events).Served ⟨ticket, caller.context, caller.request⟩ values := by
  have accounted := accounted batchSize events
  simp only [replyOf, receipt, Option.map_eq_some_iff] at replied
  obtain ⟨answer, found, reply⟩ := replied
  have member := List.mem_of_find?_eq_some found
  have sameTicket : answer.waiter.ticket = ticket := by simpa using List.find?_some found
  have acceptedCaller : ⟨ticket, caller.context, caller.request⟩ ∈
      (of batchSize events).accepted :=
    List.mem_filterMap.mpr ⟨caller, arrived, by simp [receipt]⟩
  have acceptedAnswer : answer.waiter ∈ (of batchSize events).accepted :=
    accounted.everyone.mem_iff.mp
      (List.mem_append_right _ (List.mem_map_of_mem (f := (·.waiter)) member))
  rw [← accounted.eq_of_ticket_eq acceptedAnswer acceptedCaller sameTicket]
  exact (traced batchSize events).served answer member values reply

/-- A load that is answered with rows gets one entry for each of its ids: the last
row with that id in the complete result of the one query of the bucket that it
joined, and that query asks in its own place for all it asks for. Over fixed
documents it agrees with the reply to the same load on its own. -/
theorem reply_of_merged_load {batchSize : Nat} {events : List LoaderEvent} {caller : Caller}
    {values : List (Option Value)} (arrived : caller ∈ (of batchSize events).callers)
    (replied : (of batchSize events).replyOf caller = some (.ok values)) :
    values.length = caller.request.ids.length ∧
    (caller.request.ids ≠ [] → ∃ (ticket : Nat) (bucket : Bucket) (rows : List Value),
      caller.receipt = .waiting ticket ∧
      ⟨ticket, caller.context, caller.request⟩ ∈ bucket.waiters ∧
      (∀ call ∈ (of batchSize events).callsFor ticket, call.flight.bucket = bucket) ∧
      Drained bucket.query (((of batchSize events).callsFor ticket).map (·.exchange)) rows ∧
      (∀ (place : Nat) (id : String), caller.request.ids[place]? = some id →
        ∃ value, values[place]? = some value ∧ Batch.LastWithId id rows value) ∧
      bucket.query.location = caller.request.location ∧
      ∃ ids columns : List String,
        bucket.query.statement = {
          text := "SELECT " ++ Column.projection columns ++
            " FROM c WHERE ARRAY_CONTAINS(@ids, c.id)"
          parameters := [⟨"@ids", .texts ids⟩] } ∧
        caller.request.ids ⊆ ids ∧ caller.request.columns ⊆ columns) ∧
    ∀ documents : Documents, documents.IdsUnique →
      (∀ call ∈ (of batchSize events).calls, call.Serves documents) →
      ∀ pages, PageChain none pages (caller.request.toBatch.resultFrom documents) →
        ∃ onItsOwn, (alone batchSize caller.context caller.request pages).replyTo 0 =
            some (.ok onItsOwn) ∧
          List.Forall₂ (Batch.AgreeOn (Column.id :: caller.request.columns)) values onItsOwn := by
  rcases callers_of batchSize events caller arrived with
    ⟨reply, receipt, settled⟩ | ⟨ticket, receipt, asks, fits⟩
  · simp only [replyOf, receipt, Option.some.injEq] at replied
    subst replied
    cases settled with
    | empty none =>
        refine ⟨by simp [none], fun asks => absurd none asks, ?_⟩
        intro documents unique serves pages chain
        exact ⟨[], replyTo_alone_empty none, .nil⟩
  · obtain ⟨bucket, rows, joined, landed, rfl⟩ := served_of_replyOf arrived receipt replied
    obtain ⟨last, lastMember, _⟩ := landed.completed
    have called := (List.mem_filter.mp lastMember).1
    have merged := merged batchSize events bucket
      (mem_buckets.mpr (.inr (.inr ⟨last, called, landed.carrier last lastMember⟩)))
    have place := merged.location_eq joined
    have ids : ∀ id ∈ caller.request.ids, id ∈ bucket.batch.ids :=
      fun id asked => (merged.ids id).mpr ⟨_, joined, asked⟩
    have columns : ∀ column ∈ caller.request.columns, column ∈ bucket.batch.columns :=
      fun column asked => (merged.columns column).mpr ⟨_, joined, asked⟩
    refine ⟨by simp [Batch.rowsFor], fun _ => ?_, ?_⟩
    · refine ⟨ticket, bucket, rows, receipt, joined, landed.carrier, landed.drained, ?_, place,
        bucket.batch.ids.names, bucket.batch.columns.names, ?_, ids, columns⟩
      · intro place id asked
        exact ⟨_, by simp [Batch.rowsFor, asked], Batch.row?_lastWithId rows id⟩
      · exact bucket.batch.statement_eq
    · intro documents unique serves pages chain
      refine ⟨_, replyTo_alone asks fits chain, ?_⟩
      have all := landed.rows_eq fun call member => serves call (List.mem_filter.mp member).1
      rw [all, Batch.rowsFor, Batch.rowsFor, List.forall₂_map_left_iff, List.forall₂_map_right_iff,
        List.forall₂_same]
      intro id asked
      exact Batch.row?_agreeOn unique place (ids id asked)
        (NameSet.mem_ofList.mpr asked) columns fun column wanted => NameSet.mem_ofList.mpr wanted

namespace SharedWindow

def context : RequestContext := ⟨"req", .null⟩

def place : Location := ⟨"db", "Things"⟩

def document (id : String) (age : Int) : Value :=
  .object [("age", .ofInt age), ("id", .string id), ("name", .string ("n" ++ id))]

def documents : Documents := fun _ => [document "1" 10, document "2" 20]

def caller : Caller := ⟨context, ⟨"Thing", place, ["name"], ["2", "1", "2"]⟩, .waiting 0⟩

def events : List LoaderEvent := [
  .load context caller.request,
  .load context ⟨"Thing", place, ["age"], ["3"]⟩,
  .fire,
  .reply 0 (.page ⟨[document "1" 10], some "more"⟩),
  .reply 0 (.page ⟨[document "2" 20], none⟩)]

def row (id : String) : Value := .object [("id", .string id), ("name", .string ("n" ++ id))]

theorem idsUnique_documents : documents.IdsUnique := by
  intro location
  simp [documents, Documents.Apart, document, Record.idOf?, Value.get?, Keyed.find?, Column.id,
    Value.text?]

theorem serves_documents : ∀ call ∈ (of 3 events).calls, call.Serves documents := by
  refine List.forall_mem_cons.mpr ⟨?_, List.forall_mem_cons.mpr ⟨?_, fun _ => nofun⟩⟩
  · rintro page ⟨⟩
    exact ⟨[document "2" 20], rfl, nofun⟩
  · rintro page ⟨⟩
    exact ⟨[], rfl, fun _ => rfl⟩

theorem reply_of_merged_load_caller :
    caller ∈ (of 3 events).callers ∧
    (of 3 events).replyOf caller =
      some (.ok [some (document "2" 20), some (document "1" 10), some (document "2" 20)]) ∧
    ∃ onItsOwn, (alone 3 context caller.request [⟨[row "1", row "2"], none⟩]).replyTo 0 =
        some (.ok onItsOwn) ∧
      List.Forall₂ (Batch.AgreeOn ["id", "name"])
        [some (document "2" 20), some (document "1" 10), some (document "2" 20)] onItsOwn :=
  have arrived : caller ∈ (of 3 events).callers := List.mem_cons_self
  have replied : (of 3 events).replyOf caller =
      some (.ok [some (document "2" 20), some (document "1" 10), some (document "2" 20)]) := rfl
  ⟨arrived, replied, (reply_of_merged_load arrived replied).2.2 documents idsUnique_documents
    serves_documents _ (.last rfl)⟩

end SharedWindow

end LoaderRun

end DocGraph
