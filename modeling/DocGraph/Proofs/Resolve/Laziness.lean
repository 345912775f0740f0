import DocGraph.Proofs.Store.Holding
import DocGraph.Resolve.Basic

namespace DocGraph

open Json

/-- A record of a document holds nothing but columns of it. -/
structure Record.Shows (record : Record) (origin : Origin) (document : Value) : Prop where
  came : record.origin = some origin
  loaded : ∀ column value, record.get? column = some value → document.get? column = some value

theorem Record.Shows.id?_eq {record : Record} {origin : Origin} {document : Value}
    (shows : record.Shows origin document) : record.id? = some origin.id := by
  simp only [Record.id?, shows.came]

theorem Record.Shows.whole (origin : Origin) (document : Value) :
    Record.Shows ⟨document, some origin⟩ origin document :=
  ⟨rfl, fun _ _ held => held⟩

/-- The store holds the document where its records say. -/
structure Store.Keeps (store : Store) (documents : Documents) (origin : Origin)
    (document : Value) : Prop where
  holds : store.Holds documents
  unique : documents.IdsUnique
  member : document ∈ documents origin.location
  carries : Record.idOf? document = some origin.id

/-- The column that a field starts from. -/
def FieldResolver.startColumn? (resolver : FieldResolver) : Option String :=
  match resolver.strategy with
  | .ours => resolver.field.ours
  | .embedded | .column => some resolver.field.fieldname
  | .root | .theirs => none

def Origin.columnRequest (origin : Origin) (column : String) : LoadRequest :=
  ⟨origin.typename, origin.location, [column], [origin.id]⟩

namespace Scope

section

variable {scope : Scope} {store : Store} {documents : Documents} {origin : Origin}
  {document : Value} {record : Record}

/-- The calls are those by which the record gets a column, none if it has the column. -/
def Completes (scope : Scope) (origin : Origin) (record : Record) (column : String)
    (calls : History) : Prop :=
  ((record.get? column).isSome → calls = []) ∧
    ∀ call ∈ calls, ∃ cursor,
      call = { (origin.columnRequest column).toBatch.query scope.context with cursor }

theorem Completes.none (column : String) : scope.Completes origin record column [] :=
  ⟨fun _ => rfl, nofun⟩

theorem reaches_loadOne (scope : Scope) {batchSize : Nat} (positive : 1 ≤ batchSize)
    (keeps : store.Keeps documents origin document) (column : String) (history : History) :
    ∃ calls row, row.get? column = document.get? column ∧
      (∀ call ∈ calls, ∃ cursor,
        call = { (origin.columnRequest column).toBatch.query scope.context with cursor }) ∧
      ∀ after : Except LoadError (Option Value) → FieldFetch,
        ((Fetch.loadOne scope.context (origin.columnRequest column)).bind after).Reaches store
          batchSize history (history ++ calls) (after (.ok (some row))) := by
  let request := origin.columnRequest column
  obtain ⟨rows, between, drains, found⟩ := keeps.holds.finds history scope.context request.toBatch
  have asked : origin.id ∈ request.toBatch.ids := NameSet.mem_ofList.mpr (.head _)
  have wanted : column ∈ Column.projected request.toBatch.columns.names :=
    Column.mem_projected.mpr (.inr (NameSet.mem_ofList.mpr (.head _)))
  obtain ⟨row, sought, rowOf⟩ := found.row?_of_mem keeps.unique asked keeps.member keeps.carries
  obtain ⟨calls, rfl, same⟩ := drains.calls
  have replied : (request.replyFrom (.ok rows)).map (·.head?.join) = .ok (some row) := by
    simp only [LoadRequest.replyFrom, Batch.rowsFor, request, Origin.columnRequest, Except.map,
      List.map_cons, sought]
    rfl
  refine ⟨calls, row, rowOf column wanted, same, fun after => ?_⟩
  have goesOn : ((Fetch.loadOne scope.context request).bind after).Reaches store batchSize history
      (history ++ calls) (after ((request.replyFrom (.ok rows)).map (·.head?.join))) := by
    refine .loaded ?_ ?_ drains .here
    · exact List.cons_ne_nil _ _
    · exact positive
  rwa [replied] at goesOn

theorem reaches_readColumn (scope : Scope) {batchSize : Nat} (positive : 1 ≤ batchSize)
    (keeps : store.Keeps documents origin document) (shows : record.Shows origin document)
    (column : String) (next : Value → FieldFetch) (history : History) :
    ∃ calls, scope.Completes origin record column calls ∧
      (scope.readColumn record column next).Reaches store batchSize history (history ++ calls)
        (next ((document.get? column).getD .null)) := by
  cases held : record.get? column with
  | some value =>
      refine ⟨[], .none column, ?_⟩
      simp only [readColumn, held, shows.loaded column value held, List.append_nil]
      exact .here
  | none =>
      obtain ⟨calls, row, same, own, reaches⟩ :=
        reaches_loadOne scope positive keeps column history
      refine ⟨calls, ⟨fun has => by simp [held] at has, own⟩, ?_⟩
      simp only [readColumn, held, shows.came]
      refine (reaches _).trans ?_
      simp only [Option.bind_some, same]
      exact .here

/-- A field reads the column first that it starts from. -/
theorem fetchField_of_startColumn? (scope : Scope) {resolver : FieldResolver} {column : String}
    (starts : resolver.startColumn? = some column) (arguments : Arguments)
    (selection : Selection) :
    ∃ next, ∀ source : Record, scope.fetchField resolver source arguments selection =
      scope.readColumn source column next := by
  unfold FieldResolver.startColumn? at starts
  cases strategy : resolver.strategy with
  | ours =>
      rw [strategy] at starts
      refine ⟨fun value => scope.executePlanned resolver arguments selection
        (resolver.planOurs scope.graph.settings.loader.batchSize arguments column value),
        fun source => ?_⟩
      simp only [fetchField, strategy, starts]
  | embedded =>
      rw [strategy] at starts
      cases starts
      refine ⟨fun value => .done (.ok (resolver.embeddedAnswer scope.graph.catalog value)),
        fun source => ?_⟩
      simp only [fetchField, strategy]
  | column =>
      rw [strategy] at starts
      cases starts
      refine ⟨fun value => .done (.ok (FieldResolver.columnAnswer value)), fun source => ?_⟩
      simp only [fetchField, strategy]
  | _ =>
      rw [strategy] at starts
      cases starts

/-- Without a column to start from, a field needs no more of its record than the id. -/
theorem fetchField_congr (scope : Scope) {resolver : FieldResolver}
    (starts : resolver.startColumn? = none) (arguments : Arguments) (selection : Selection)
    {source other : Record} (same : source.id? = other.id?) :
    scope.fetchField resolver source arguments selection =
      scope.fetchField resolver other arguments selection := by
  unfold FieldResolver.startColumn? at starts
  cases strategy : resolver.strategy with
  | root => simp only [fetchField, strategy]
  | ours =>
      rw [strategy] at starts
      simp only [fetchField, strategy, starts]
  | theirs => simp only [fetchField, strategy, FieldResolver.planTheirs, same]
  | _ =>
      rw [strategy] at starts
      cases starts

theorem frame_congr (resolver : FieldResolver) {source other : Record}
    (same : source.id? = other.id?) : frame resolver source = frame resolver other := by
  simp only [frame, same]

/-- After the column that is read first, the records of one document are resolved alike. -/
theorem resolve_joins (scope : Scope) {batchSize : Nat} (positive : 1 ≤ batchSize)
    (keeps : store.Keeps documents origin document) (arguments : Arguments) (info : FieldInfo)
    (history : History) :
    ∃ column rest, ∀ record : Record, record.Shows origin document →
      ∃ calls, scope.Completes origin record column calls ∧
        (scope.resolve record arguments info).Reaches store batchSize history (history ++ calls)
          rest := by
  cases known : scope.graph.resolver? info.parentType info.fieldname with
  | none =>
      refine ⟨info.fieldname,
        .done (.error (scope.graph.onError (scope.missingResolver info) info)),
        fun record _ => ⟨[], .none _, ?_⟩⟩
      simp only [resolve, known, List.append_nil]
      exact .here
  | some resolver =>
      let standIn : Record := ⟨document, some origin⟩
      let wrap (result : Except ResolveFault Resolved) : Except ResolveError Resolved :=
        result.mapError fun fault =>
          scope.graph.onError (.traced (frame resolver standIn) (.ofFault fault)) info
      have sameId : ∀ {record : Record}, record.Shows origin document → record.id? = standIn.id? :=
        fun shows => shows.id?_eq.trans (Record.Shows.whole origin document).id?_eq.symm
      have resolved : ∀ {record : Record}, record.Shows origin document →
          scope.resolve record arguments info =
            (scope.fetchField resolver record arguments info.selection).map wrap := by
        intro record shows
        simp only [resolve, known, frame_congr resolver (sameId shows), wrap]
      cases starts : resolver.startColumn? with
      | some column =>
          obtain ⟨next, reads⟩ := fetchField_of_startColumn? scope starts arguments info.selection
          refine ⟨column, (next ((document.get? column).getD .null)).map wrap,
            fun record shows => ?_⟩
          obtain ⟨calls, completes, reaches⟩ :=
            reaches_readColumn scope positive keeps shows column next history
          refine ⟨calls, completes, ?_⟩
          rw [resolved shows, reads]
          exact reaches.map wrap
      | none =>
          refine ⟨info.fieldname,
            (scope.fetchField resolver standIn arguments info.selection).map wrap,
            fun record shows => ⟨[], .none _, ?_⟩⟩
          rw [resolved shows, fetchField_congr scope starts arguments info.selection (sameId shows),
            List.append_nil]
          exact .here

/-- Lazy loading is transparent: a field has one outcome on all records of a document, and only
the calls that fetch a missing column differ. -/
theorem lazy_loading_transparent {session : Session} {first second : Record}
    (positive : 1 ≤ scope.graph.settings.loader.batchSize)
    (keeps : store.Keeps documents origin document)
    (rests : session.Rests scope.graph.settings.loader.batchSize)
    (firstShows : first.Shows origin document) (secondShows : second.Shows origin document)
    (arguments : Arguments) (info : FieldInfo) :
    ∃ outcome column firstFetch secondFetch calls,
      scope.Completes origin first column firstFetch ∧
      scope.Completes origin second column secondFetch ∧
      (scope.resolve first arguments info).Ends store scope.graph.settings.loader session outcome
        (firstFetch ++ calls) ∧
      (scope.resolve second arguments info).Ends store scope.graph.settings.loader session outcome
        (secondFetch ++ calls) := by
  obtain ⟨column, rest, joins⟩ :=
    resolve_joins scope positive keeps arguments info session.history
  obtain ⟨firstFetch, firstCompletes, firstReaches⟩ := joins first firstShows
  obtain ⟨secondFetch, secondCompletes, secondReaches⟩ := joins second secondShows
  obtain ⟨later, outcome, reaches⟩ := Fetch.reaches_done keeps.holds rest session.history
  obtain ⟨calls, _, moves⟩ := reaches.moved keeps.holds.steady
  refine ⟨outcome, column, firstFetch, secondFetch, calls, firstCompletes, secondCompletes, ?_, ?_⟩
  · apply Fetch.Reaches.ends rests
    rw [← List.append_assoc]
    exact firstReaches.trans (moves _)
  · apply Fetch.Reaches.ends rests
    rw [← List.append_assoc]
    exact secondReaches.trans (moves _)

end

namespace Friends

def field (fieldname returnTypename : String) (relation : Relation) : Field where
  fieldname
  returnTypename
  returnMany := relation.isMany
  placement := if relation = .embedded then .unknown else .full "db" "People"
  ours := if relation = .manyOurs then some "friendIds" else none
  theirs := none
  filterOps := none
  filterAlias := none
  sortable := none
  sortAlias := none
  pagination := some false
  relation

def schema : Schema := ⟨[⟨"Person", .full "db" "People", false, [
  field "friends" "Person" .manyOurs, field "name" "String" .embedded]⟩]⟩

def scope : Scope := ⟨.ofCatalog (.ofSchema schema) {}, ⟨"req", .null⟩⟩

def ann : Value := .object [("id", .string "1"), ("name", .string "ann"),
  ("friendIds", .texts ["2"])]

def bob : Value := .object [("id", .string "2"), ("name", .string "bob")]

def documents : Documents := fun _ => [ann, bob]

def origin : Origin := ⟨.single, "Person", ⟨"db", "People"⟩, "1"⟩

/-- A row that was selected without the keys of the friends. -/
def narrow : Record := ⟨.object [("id", .string "1")], some origin⟩

def whole : Record := ⟨ann, some origin⟩

def info : FieldInfo := ⟨"Person", "friends", .of [("name", .empty)]⟩

theorem narrow_shows : narrow.Shows origin ann where
  came := rfl
  loaded column value held := by
    unfold narrow Record.get? at held
    simp only [Value.get?, Keyed.find?] at held
    split at held
    · next same => rw [same, ← held]; rfl
    · contradiction

theorem keeps : (Store.ofDocuments documents).Keeps documents origin ann where
  holds := Store.holds_ofDocuments documents
  unique _ := by
    refine List.pairwise_pair.mpr fun id annCarries bobCarries => ?_
    exact absurd (annCarries.trans bobCarries.symm) (by decide)
  member := .head _
  carries := rfl

theorem lazy_loading_transparent_friends : ∃ outcome column narrowFetch wholeFetch calls,
    scope.Completes origin narrow column narrowFetch ∧
    scope.Completes origin whole column wholeFetch ∧
    (scope.resolve narrow {} info).Ends (.ofDocuments documents) {} (.new {}) outcome
      (narrowFetch ++ calls) ∧
    (scope.resolve whole {} info).Ends (.ofDocuments documents) {} (.new {}) outcome
      (wholeFetch ++ calls) :=
  lazy_loading_transparent (by decide) keeps (Session.rests_new {}) narrow_shows
    (.whole origin ann) {} info

end Friends

end Scope

end DocGraph
