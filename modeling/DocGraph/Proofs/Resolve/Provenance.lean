import DocGraph.Proofs.Fetch.Sessions
import DocGraph.Proofs.Loader.Contexts
import DocGraph.Proofs.Query.Projecting
import DocGraph.Proofs.Resolve.Endings
import DocGraph.Proofs.Store.PageRows

/-!
# Where records come from

A row reaches a record along one of four ways: through the loader, with the list that a query
is drained of, with the one page of a query, or with the window of a page. On each of them the
record is tagged apart from the call. The tag is right nevertheless, and what is loaded later
by it is loaded from where the row came from.
-/

namespace DocGraph

open Json

/-- A call that gave a row: at a location, with all of some columns in its list. -/
structure Store.Gave (store : Store) (history : History) (location : Location)
    (columns : List String) (row : Value) (query : StoreQuery) : Prop where
  returned : store.Returned history query row
  location : query.location = location
  lists : ∃ listed, query.statement.columns? = some listed ∧ ∀ column ∈ columns, column ∈ listed

theorem Batch.mem_of_mem_rowsFor {rows : List Value} {ids : List String} {row : Value}
    (member : some row ∈ rowsFor rows ids) : row ∈ rows := by
  obtain ⟨id, _, found⟩ := List.mem_map.mp member
  exact List.mem_reverse.mp (List.mem_of_find?_eq_some found)

namespace Store

variable {store : Store} {history : History} {batchSize : Nat} {location : Location}

theorem gave_of_handed {columns : List String} {row : Value} {query : StoreQuery}
    (handed : store.Handed history query row)
    (lists : ∃ listed, query.statement.columns? = some listed ∧
      ∀ column ∈ columns, column ∈ listed) :
    ∃ call, store.Gave history query.location columns row call := by
  obtain ⟨cursor, returned⟩ := handed
  exact ⟨_, returned, rfl, lists⟩

/-- A row of a load came with a call for its batch. -/
theorem gave_of_load {context : RequestContext} {request : LoadRequest}
    {rows : List (Option Value)} {row : Value}
    (given : (store.supply batchSize history).load context request (.ok rows))
    (member : some row ∈ rows) :
    ∃ query, store.Gave history request.location request.columns row query := by
  rcases given with settled | answered
  · cases settled
    contradiction
  · cases answered with
    | @rows batch asker _ _ location columns handed =>
        have came := handed row (Batch.mem_of_mem_rowsFor member)
        rw [← location]
        refine gave_of_handed came ⟨_, batch.columns?_statement, fun column wanted => ?_⟩
        exact Column.mem_projected.mpr (.inr (columns column wanted))

theorem lists_of_select {catalog : Catalog} {typename : String} {columns : List String}
    {filters : List Filter} {keys : List SortKey} {statement : Statement}
    (selects : catalog.select typename columns filters keys = .ok statement) :
    ∃ listed, statement.columns? = some listed ∧ ∀ column ∈ columns, column ∈ listed :=
  ⟨_, Catalog.columns?_select selects, fun _ wanted => Column.mem_projected.mpr (.inr wanted)⟩

end Store

namespace Scope

section

variable {scope : Scope} {store : Store} {history : History} {batchSize : Nat}
  {resolver : FieldResolver} {selection : Selection}

/-- Every way on which a row is fetched begins with a call for it. -/
theorem Fetched.gave {location : Location} {row : Value}
    (fetched : scope.Fetched (store.supply batchSize history) resolver selection location row) :
    ∃ query, store.Gave history location (scope.graph.catalog.selectedColumns
      resolver.field.returnTypename (some selection)) row query := by
  cases fetched with
  | loaded given member => exact Store.gave_of_load given member
  | drained selects given member =>
      exact Store.gave_of_handed (given _ rfl row member) (Store.lists_of_select selects)
  | queried selects given member =>
      exact ⟨_, ⟨_, given _ rfl, member⟩, rfl, Store.lists_of_select selects⟩

end

/-- A field needs nothing of a record but its value and its id: no column of it is fetched. -/
def FetchesNoColumn (scope : Scope) (record : Record) (arguments : Arguments)
    (info : FieldInfo) : Prop :=
  ∀ other : Record, other.value = record.value → other.id? = record.id? →
    scope.resolve other arguments info = scope.resolve record arguments info

/-- How a field starts on a described record: without any column of it being fetched, or with
the load of one column that it lacks, from where the record came. -/
inductive Starts (scope : Scope) (value : Value) (origin : Origin) (arguments : Arguments)
    (info : FieldInfo) : Prop
  | alone (none : scope.FetchesNoColumn ⟨value, some origin⟩ arguments info)
  | loads {column : String} {next : LoadReply → Fetch (Except ResolveError Resolved)}
      (lacks : value.get? column = none)
      (load : ∀ same : Origin, same.id = origin.id →
        scope.resolve ⟨value, some same⟩ arguments info =
          .load scope.context (same.columnRequest column) next)

section

variable {scope : Scope} {resolver : FieldResolver} {record : Record} {arguments : Arguments}
  {info : FieldInfo}

theorem fetchesNoColumn_of_unknown
    (unknown : scope.graph.resolver? info.parentType info.fieldname = none) :
    scope.FetchesNoColumn record arguments info := by
  intro other _ _
  simp only [resolve, unknown]

theorem fetchesNoColumn_of_held
    (known : scope.graph.resolver? info.parentType info.fieldname = some resolver)
    (held : ∀ column, resolver.startColumn? = some column → (record.get? column).isSome) :
    scope.FetchesNoColumn record arguments info := by
  intro other sameValue sameId
  have fetches : scope.fetchField resolver other arguments info.selection =
      scope.fetchField resolver record arguments info.selection := by
    cases starts : resolver.startColumn? with
    | none => exact fetchField_congr scope starts arguments info.selection sameId
    | some column =>
        obtain ⟨next, reads⟩ := fetchField_of_startColumn? scope starts arguments info.selection
        obtain ⟨value, held⟩ := Option.isSome_iff_exists.mp (held column starts)
        have heldToo : other.get? column = some value := by
          rwa [Record.get?, sameValue]
        simp only [reads, readColumn, heldToo, held]
  simp only [resolve, known, frame_congr resolver sameId, fetches]

/-- What becomes of the reply to the load of a column. -/
def afterColumn (column : String) (next : Value → FieldFetch) : LoadReply → FieldFetch
  | .ok rows => next ((rows.head?.join.bind (·.get? column)).getD .null)
  | .error error => .done (.error (.loader error))

theorem readColumn_loads (scope : Scope) {value : Value} {column : String}
    (lacks : value.get? column = none) (origin : Origin) (next : Value → FieldFetch) :
    scope.readColumn ⟨value, some origin⟩ column next =
      .load scope.context (origin.columnRequest column) (afterColumn column next) := by
  have missing : (Record.mk value (some origin)).get? column = none := lacks
  simp only [readColumn, missing, Fetch.loadOne, Fetch.bind]
  refine congrArg _ (funext fun reply => ?_)
  cases reply <;> rfl

end

theorem starts (scope : Scope) (value : Value) (origin : Origin) (arguments : Arguments)
    (info : FieldInfo) : scope.Starts value origin arguments info := by
  cases known : scope.graph.resolver? info.parentType info.fieldname with
  | none => exact .alone (fetchesNoColumn_of_unknown known)
  | some resolver =>
      by_cases held : ∀ column, resolver.startColumn? = some column → (value.get? column).isSome
      · exact .alone (fetchesNoColumn_of_held known held)
      · push Not at held
        obtain ⟨column, starts, lacks⟩ := held
        have lacks : value.get? column = none := Option.not_isSome_iff_eq_none.mp lacks
        obtain ⟨next, reads⟩ := fetchField_of_startColumn? scope starts arguments info.selection
        have load : ∀ same : Origin, same.id = origin.id →
            scope.resolve ⟨value, some same⟩ arguments info =
              .load scope.context (same.columnRequest column) fun reply =>
                (afterColumn column next reply).map fun result => result.mapError fun fault =>
                  scope.graph.onError (.traced (frame resolver ⟨value, some origin⟩)
                    (.ofFault fault)) info := by
          intro same sameId
          have sameId : (Record.mk value (some same)).id? = (Record.mk value (some origin)).id? :=
            congrArg some sameId
          simp only [resolve, known, frame_congr resolver sameId, reads,
            readColumn_loads scope lacks]
          rfl
        exact .loads lacks load

/-- The calls by which a loader serves the load of a column go where the record came from, and
ask for its id and the column. -/
theorem calls_of_columnRequest {batchSize : Nat} {events : List LoaderEvent} {caller : Caller}
    {ticket : Nat} {call : StoreCall} {origin : Origin} {column : String}
    (arrived : caller ∈ (LoaderRun.of batchSize events).callers)
    (asks : caller.request = origin.columnRequest column)
    (receipt : caller.receipt = .waiting ticket)
    (called : call ∈ (LoaderRun.of batchSize events).callsFor ticket) :
    call.exchange.query.location = origin.location ∧ ∃ batch : Batch,
      call.exchange.query.statement = batch.statement ∧ origin.id ∈ batch.ids ∧
      column ∈ batch.columns := by
  obtain ⟨joined, _⟩ := LoaderRun.context_of_call arrived receipt called
  obtain ⟨made, _⟩ := List.mem_filter.mp called
  have flown : call.flight ∈ (LoaderRun.of batchSize events).flown :=
    LoaderRun.mem_flown.mpr (.inr ⟨call, made, rfl⟩)
  have merged := LoaderRun.merged batchSize events _ (LoaderRun.mem_buckets_of_mem_flown flown)
  have query := LoaderRun.query_eq batchSize events _ flown
  have location := merged.location_eq joined
  refine ⟨?_, call.flight.bucket.batch, ?_, ?_, ?_⟩
  · rw [StoreCall.exchange, query]
    exact location.trans (congrArg LoadRequest.location asks)
  · rw [StoreCall.exchange, query]
    rfl
  · refine (merged.ids _).mpr ⟨_, joined, ?_⟩
    rw [asks]
    exact .head _
  · refine (merged.columns _).mpr ⟨_, joined, ?_⟩
    rw [asks]
    exact .head _

end Scope

/-- What is loaded later for a described record is one column by its id, from where it came. -/
structure Origin.Refetches (origin : Origin) (value : Value) : Prop where
  starts : ∀ scope arguments info, Scope.Starts scope value origin arguments info
  calls : ∀ {batchSize : Nat} {events : List LoaderEvent} {caller : Caller} {ticket : Nat}
    {call : StoreCall} {column : String},
    caller ∈ (LoaderRun.of batchSize events).callers →
    caller.request = origin.columnRequest column → caller.receipt = .waiting ticket →
    call ∈ (LoaderRun.of batchSize events).callsFor ticket →
      call.exchange.query.location = origin.location ∧ ∃ batch : Batch,
        call.exchange.query.statement = batch.statement ∧ origin.id ∈ batch.ids ∧
        column ∈ batch.columns

/-- A record has a description only if it has an id, and then a true one. -/
structure Record.TrueTo (record : Record) (store : Store) (history : History)
    (typename : String) : Prop where
  undescribed : Record.idOf? record.value = none → record.origin = none
  described : ∀ origin, record.origin = some origin →
    origin.typename = typename ∧ Record.idOf? record.value = some origin.id ∧
    (∃ query, query.location = origin.location ∧ store.Returned history query record.value) ∧
    origin.Refetches record.value

namespace Record.TrueTo

variable {store : Store} {history : History} {typename : String}

theorem ofValue (value : Value) : (Record.ofValue value).TrueTo store history typename :=
  ⟨fun _ => rfl, nofun⟩

theorem ofRow (kind : RowKind) {location : Location} {row : Value}
    (came : ∃ query, query.location = location ∧ store.Returned history query row) :
    (Record.ofRow kind typename location row).TrueTo store history typename where
  undescribed unidentified := by
    have unidentified : idOf? row = none := unidentified
    simp only [Record.ofRow, unidentified, Option.map_none]
  described origin described := by
    obtain ⟨id, identified, rfl⟩ := Option.map_eq_some_iff.mp described
    exact ⟨rfl, identified, came, fun scope => scope.starts row _, Scope.calls_of_columnRequest⟩

end Record.TrueTo

namespace Scope

section

variable {scope : Scope} {store : Store} {settings : LoaderSettings} {session after : Session}
  {patience place : Nat} {jobs : List (Job (Except ResolveError Resolved))}
  {job : Job (Except ResolveError Resolved)} {results : List (Except ResolveError Resolved)}
  {source : Record} {arguments : Arguments} {info : FieldInfo} {resolver : FieldResolver}
  {resolved : Resolved}

/-- What a field answers with in a run is what the calls of the store gave. -/
theorem answers_of_run (reached : Session.Reached store settings session)
    (ran : session.run store settings patience jobs = (.finished results, after))
    (here : jobs[place]? = some job) (resolves : job.fetch = scope.resolve source arguments info)
    (known : scope.graph.resolver? info.parentType info.fieldname = some resolver)
    (succeeds : results[place]? = some (.ok resolved)) :
    scope.Answers (store.supply settings.batchSize after.history) resolver info.selection
      resolved := by
  obtain ⟨result, came, led⟩ := reached.leads_of_job ran here
  obtain rfl := Option.some.inj (came.symm.trans succeeds)
  rw [resolves] at led
  obtain ⟨ended, ends, same⟩ := yields_resolve known _ led
  cases ends with
  | failed => cases same
  | answered answers =>
      cases same
      exact answers

/-- Records carry true provenance: whether a field answers with them or they are read from its
page, they tell the type of the field, where their row came from and its id, and what they lack
is loaded from there. -/
theorem provenance (reached : Session.Reached store settings session)
    (ran : session.run store settings patience jobs = (.finished results, after))
    (here : jobs[place]? = some job) (resolves : job.fetch = scope.resolve source arguments info)
    (known : scope.graph.resolver? info.parentType info.fieldname = some resolver)
    (succeeds : results[place]? = some (.ok resolved)) :
    (∀ record ∈ resolved.contents,
      record.TrueTo store after.history resolver.field.returnTypename) ∧
    ∀ page, resolved = .page page → ∀ now later items,
      page.Later store after.history now later →
      (now.items store later).outcome = .finished (.ok items) →
      ∀ record ∈ items,
        record.TrueTo store (now.items store later).history resolver.field.returnTypename := by
  have answers := answers_of_run reached ran here resolves known succeeds
  refine ⟨fun record member => ?_, fun page same now later items visited read record member => ?_⟩
  · cases answers.records record member with
    | inside value => exact .ofValue value
    | row kind fetched =>
        obtain ⟨query, gave⟩ := fetched.gave
        exact .ofRow kind ⟨query, gave.location, gave.returned⟩
  · have opens := answers.pages page same
    obtain ⟨rows, made, rfl⟩ := Page.items_of_later opens.unread visited read
    obtain ⟨row, inside, rfl⟩ := List.mem_map.mp member
    rw [opens.typename]
    exact .ofRow .list ⟨page.windowQuery, rfl, rows, made, inside⟩

end

namespace Owned

def ownerRow : Value := .object [("id", .string "9"), ("thingId", .string "1")]

/-- A store with one owner, whatever it is asked. -/
def oneOwner : Store := fun _ _ => .page ⟨[ownerRow], none⟩

/-- The owner as the answer of the field, and as the only item of a page. -/
theorem provenance_owner :
    (∃ after, (Session.new {}).run oneOwner {} 2 (jobs false) =
        (.finished [.ok (.record ⟨ownerRow, some ⟨.single, "Owner", ⟨"db", "Owners"⟩, "9"⟩⟩)],
          after) ∧
      Record.TrueTo ⟨ownerRow, some ⟨.single, "Owner", ⟨"db", "Owners"⟩, "9"⟩⟩ oneOwner
        after.history "Owner") ∧
    ∃ after,
      (Session.new {}).run oneOwner {} 2 (jobs true) = (.finished [.ok (.page page)], after) ∧
      (page.items oneOwner after.history).outcome =
        .finished (.ok [⟨ownerRow, some ⟨.list, "Owner", ⟨"db", "Owners"⟩, "9"⟩⟩]) ∧
      Record.TrueTo ⟨ownerRow, some ⟨.list, "Owner", ⟨"db", "Owners"⟩, "9"⟩⟩ oneOwner
        (page.items oneOwner after.history).history "Owner" := by
  refine ⟨⟨_, rfl, ?_⟩, _, rfl, rfl, ?_⟩
  · have told := @provenance (scope false) oneOwner {} (.new {}) _ 2 0 (jobs false) _ _ thing {}
      info (resolver false) _ .new rfl rfl rfl (by decide) rfl
    exact told.1 _ (.head _)
  · have told := @provenance (scope true) oneOwner {} (.new {}) _ 2 0 (jobs true) _ _ thing {} info
      (resolver true) _ .new rfl rfl rfl (by decide) rfl
    exact told.2 page rfl page _ _ .fresh rfl _ (.head _)

end Owned

end Scope

end DocGraph
