import DocGraph.Proofs.Resolve.KeyPlans
import DocGraph.Proofs.Resolve.Narrowing

/-!
# Two ways along keys

The records that a parent keeps the keys of are loaded by id, and with a filter they are
queried for. A filter that is always true changes the way and nothing else, as long as no
document is named by two keys.
-/

namespace DocGraph

open Json

namespace Scope

section

variable {scope : Scope} {store : Store} {comparer : Comparer} {documents : Documents}
  {resolver : FieldResolver} {location : Location} {source : Record} {column : String}
  {value : Value} {ids : List String} {history : History}

def Reads (scope : Scope) (store : Store) (history : History) (source : Record) (column : String)
    (value : Value) : Prop :=
  ∃ later, ∀ next, (scope.readColumn source column next).Reaches store
    scope.graph.settings.loader.batchSize history later (next value)

theorem reads_loaded (held : source.get? column = some value) :
    scope.Reads store history source column value := by
  refine ⟨history, fun next => ?_⟩
  simp only [readColumn, held]
  exact .here

def relatedColumns (scope : Scope) (resolver : FieldResolver) (selection : Selection) :
    List String :=
  Column.projected (scope.graph.catalog.selectedColumns resolver.field.returnTypename
    (some selection))

theorem id_mem_relatedColumns (selection : Selection) :
    Column.id ∈ scope.relatedColumns resolver selection :=
  Column.mem_projected.mpr (.inl rfl)

/-- The rows that the keys of a parent name, in the order of the keys. -/
def keyedRows (scope : Scope) (resolver : FieldResolver) (documents : Documents)
    (location : Location) (selection : Selection) (ids : List String) : List Value :=
  documents.keyedRows location (scope.relatedColumns resolver selection) ids

/-- Loaded by id, a record comes for every key that names it. -/
theorem reaches_loadRelated (answers : store.AnswersFrom comparer documents)
    (unique : documents.IdsUnique) (located : resolver.location = .ok location) (asks : ids ≠ [])
    {batchSize : Nat} (fits : ids.length ≤ batchSize) (selection : Selection)
    (history : History) :
    ∃ later, (scope.loadRelated resolver ids selection).Reaches store batchSize history later
      (.done (resolver.loaded location
        (scope.keyedRows resolver documents location selection ids))) := by
  let request := resolver.loadRequest scope.graph.catalog location ids selection
  obtain ⟨rows, drains, found⟩ := answers.batch unique request.toBatch scope.context history
  have all : rows.Perm
      (documents.rowsWith location ids (scope.relatedColumns resolver selection)) := by
    have sameIds : ∀ id, id ∈ request.toBatch.ids.names ↔ id ∈ ids := fun id => NameSet.mem_ofList
    have sameColumns : ∀ column, column ∈ Column.projected request.toBatch.columns.names ↔
        column ∈ scope.relatedColumns resolver selection := by
      intro column
      rw [relatedColumns, Column.mem_projected, Column.mem_projected]
      exact or_congr_right NameSet.mem_ofList
    rwa [Documents.rowsWith_congr sameIds sameColumns] at found
  have replied : request.replyFrom (.ok rows) =
      .ok (ids.map (documents.rowOf? location (scope.relatedColumns resolver selection))) := by
    refine congrArg Except.ok (List.map_congr_left fun id wanted => ?_)
    exact Documents.row?_eq_rowOf? unique (id_mem_relatedColumns selection) all wanted
  have few : request.distinctIds ≤ batchSize := Nat.le_trans request.distinctIds_le fits
  refine ⟨history ++ [request.toBatch.query scope.context], ?_⟩
  simp only [loadRelated, located]
  refine .loaded asks few drains ?_
  rw [replied]
  simp only [Fetch.bind, List.filterMap_map, Function.id_comp]
  exact .here

/-- Queried for by their ids, the records come once each. -/
theorem reaches_query {entity : Entity} (answers : store.AnswersFrom comparer documents)
    (unique : documents.IdsUnique)
    (returns : scope.graph.catalog.requireEntity resolver.field.returnTypename = .ok entity)
    (located : resolver.location = .ok location) (flat : resolver.field.isPaginated = false)
    (ids : List String) (batchSize : Nat) (arguments : Arguments) (selection : Selection)
    (history : History) :
    ∃ later queried,
      (scope.execute resolver arguments selection
        (.query [resolver.idCondition ids, .all []] [])).Reaches store batchSize history later
          (.done queried) ∧
      resolver.Queried location
        (scope.keyedRows resolver documents location selection ids).dedup queried := by
  obtain ⟨statement, built⟩ := resolver.select_idCondition returns
    (scope.graph.catalog.selectedColumns resolver.field.returnTypename (some selection)) ids
  obtain ⟨condition, selects, reads⟩ := Catalog.selection?_select built
  have rows : ∀ limit, comparer.selected documents (scope.relatedCall location statement limit)
      (scope.relatedColumns resolver selection) condition =
        documents.rowsWith location ids (scope.relatedColumns resolver selection) := by
    intro limit
    refine Comparer.selected_eq_rowsWith documents _ fun document => ?_
    have keyed := @FieldResolver.idCondition_holds resolver scope.graph.catalog
      resolver.field.returnTypename ids comparer document
    refine (reads comparer document true).trans ?_
    simpa [Filter.allHold, Filter.holds] using keyed
  have asked : ∀ limit, ∃ page,
      store history (scope.relatedCall location statement limit) = .page page ∧
      page.Answers (documents.rowsWith location ids (scope.relatedColumns resolver selection))
        limit := by
    intro limit
    rw [← rows limit]
    exact answers history _ _ condition rfl selects
  have once : (documents.rowsWith location ids (scope.relatedColumns resolver selection)).Perm
      (scope.keyedRows resolver documents location selection ids).dedup :=
    Documents.rowsWith_perm_dedup unique (id_mem_relatedColumns selection)
  have related : resolver.relatedQuery scope.graph [resolver.idCondition ids, .all []] [] arguments
      selection = .ok (if resolver.field.returnMany then .list location statement
        else .single location statement) := by
    simp only [FieldResolver.relatedQuery, located, flat, built]
    rfl
  simp only [execute, related]
  cases many : resolver.field.returnMany with
  | true =>
      obtain ⟨page, replied, answered⟩ := asked none
      cases answered with
      | whole all =>
          exact ⟨_, _, .drained (Store.drains_of_page replied) .here,
            .records many (all.trans once)⟩
      | cut bound => cases bound
  | false =>
      obtain ⟨page, replied, answered⟩ := asked (some 2)
      refine ⟨_, _, .answered replied .here, .one many ?_⟩
      exact (FieldResolver.hidesNone_of_answers many answered).perm once

/-- A relation whose keys the parent keeps in a column, answered without pages. -/
structure AlongKeys (scope : Scope) (decls : List TypeDecl) (info : FieldInfo)
    (resolver : FieldResolver) (column : String) (location : Location) : Prop where
  compiled : scope.graph.CompiledFrom decls
  known : scope.graph.resolver? info.parentType info.fieldname = some resolver
  relation : resolver.field.relation = .oneOurs ∨ resolver.field.relation = .manyOurs
  flat : resolver.field.isPaginated = false
  kept : resolver.field.ours = some column
  located : resolver.location = .ok location

variable {decls : List TypeDecl} {info : FieldInfo} {session : Session} {arguments : Arguments}

theorem AlongKeys.settled (along : scope.AlongKeys decls info resolver column location) :
    resolver.strategy = .ours ∧
      ∃ entity, scope.graph.catalog.requireEntity resolver.field.returnTypename = .ok entity := by
  obtain ⟨_, _, stems⟩ := along.compiled.stems along.known
  have related : resolver.field.relation ≠ .embedded := by
    rcases along.relation with relation | relation <;> simp [relation]
  exact ⟨stems.ours along.relation, stems.returns related⟩

/-- Once the keys are read, a resolution ends as its plan does. -/
theorem AlongKeys.ends (along : scope.AlongKeys decls info resolver column location)
    (rests : session.Rests scope.graph.settings.loader.batchSize)
    (reads : scope.Reads store session.history source column value) :
    ∃ history, ∀ {arguments : Arguments} {plan : Plan} {result : Except ResolveFault Resolved}
        {later : History},
      resolver.planOurs scope.graph.settings.loader.batchSize arguments column value = .ok plan →
      (scope.execute resolver arguments info.selection plan).Reaches store
        scope.graph.settings.loader.batchSize history later (.done result) →
      ∃ calls, (scope.resolve source arguments info).Ends store scope.graph.settings.loader session
        (result.mapError (scope.framed resolver source info)) calls := by
  obtain ⟨history, reading⟩ := reads
  refine ⟨history, fun {arguments plan result later} planned executes => ?_⟩
  have fetches : (scope.fetchField resolver source arguments info.selection).Reaches store
      scope.graph.settings.loader.batchSize session.history later (.done result) := by
    simp only [fetchField, along.settled.1, along.kept]
    refine (reading _).trans ?_
    simpa only [planned, executePlanned] using executes
  have resolves := fetches.map (·.mapError (scope.framed resolver source info))
  rw [← resolve_eq along.known] at resolves
  obtain ⟨calls, rfl⟩ := resolves.grows
  exact ⟨calls, resolves.ends rests⟩

/-- Loaded by id or queried for, the related records are made from the rows that the keys
name: a load from all of them, a query from those that differ. -/
theorem AlongKeys.both_ways (along : scope.AlongKeys decls info resolver column location)
    (answers : store.AnswersFrom comparer documents) (unique : documents.IdsUnique)
    (rests : session.Rests scope.graph.settings.loader.batchSize) (plain : arguments.Plain)
    (reads : scope.Reads store session.history source column value) (keeps : value.KeepsKeys ids)
    (fits : ids.length ≤ scope.graph.settings.loader.batchSize) :
    ∃ queried loadCalls queryCalls,
      (scope.resolve source arguments info).Ends store scope.graph.settings.loader session
        ((resolver.loaded location (scope.keyedRows resolver documents location info.selection
          ids)).mapError (scope.framed resolver source info)) loadCalls ∧
      (scope.resolve source (arguments.withFilter Arguments.alwaysTrue) info).Ends store
        scope.graph.settings.loader session (queried.mapError (scope.framed resolver source info))
        queryCalls ∧
      resolver.Queried location
        (scope.keyedRows resolver documents location info.selection ids).dedup queried := by
  obtain ⟨history, ends⟩ := along.ends rests reads
  have read := keysOf_of_keepsKeys keeps column
  have loads := FieldResolver.planOurs_plain plain along.flat read fits
  have queries := @FieldResolver.planOurs_alwaysTrue resolver arguments
    scope.graph.settings.loader.batchSize column value ids plain along.flat read
  cases ids with
  | nil =>
      obtain ⟨loadCalls, loaded⟩ := ends loads .here
      obtain ⟨queryCalls, queried⟩ := ends queries .here
      rw [← resolver.loaded_nil location] at loaded
      exact ⟨_, loadCalls, queryCalls, loaded, queried, resolver.queried_nil location⟩
  | cons first rest =>
      obtain ⟨_, loading⟩ := reaches_loadRelated answers unique along.located
        (List.cons_ne_nil first rest) fits info.selection history
      obtain ⟨_, returns⟩ := along.settled.2
      obtain ⟨_, queried, querying, found⟩ := reaches_query answers unique returns along.located
        along.flat (first :: rest) scope.graph.settings.loader.batchSize
        (arguments.withFilter Arguments.alwaysTrue) info.selection history
      obtain ⟨loadCalls, loaded⟩ := ends loads loading
      obtain ⟨queryCalls, ended⟩ := ends queries querying
      exact ⟨queried, loadCalls, queryCalls, loaded, ended, found⟩

/-- If no key names a document that another names, the ways along the keys have one outcome;
else a load comes with a document for every key that names it, and a query with each once. -/
theorem ways_along_keys (along : scope.AlongKeys decls info resolver column location)
    (answers : store.AnswersFrom comparer documents) (unique : documents.IdsUnique)
    (rests : session.Rests scope.graph.settings.loader.batchSize) (plain : arguments.Plain)
    (reads : scope.Reads store session.history source column value) (keeps : value.KeepsKeys ids)
    (fits : ids.length ≤ scope.graph.settings.loader.batchSize) :
    ∃ rows queried loadCalls queryCalls,
      rows = scope.keyedRows resolver documents location info.selection ids ∧
      (scope.resolve source arguments info).Ends store scope.graph.settings.loader session
        ((resolver.loaded location rows).mapError (scope.framed resolver source info)) loadCalls ∧
      (scope.resolve source (arguments.withFilter Arguments.alwaysTrue) info).Ends store
        scope.graph.settings.loader session (queried.mapError (scope.framed resolver source info))
        queryCalls ∧
      (documents.NamedOnce location ids →
        resolver.SameOutcome location (resolver.loaded location rows) queried) ∧
      (¬ documents.NamedOnce location ids →
        resolver.OnceEach location rows (resolver.loaded location rows) queried) := by
  obtain ⟨queried, loadCalls, queryCalls, loads, queries, found⟩ :=
    along.both_ways answers unique rests plain reads keeps fits
  have once := @Documents.nodup_keyedRows_iff documents location ids
    (scope.relatedColumns resolver info.selection) unique (id_mem_relatedColumns _)
  refine ⟨_, queried, loadCalls, queryCalls, rfl, loads, queries, fun named => ?_,
    fun repeats => ?_⟩
  · exact FieldResolver.sameOutcome_of_nodup (once.mpr named) found
  · exact FieldResolver.onceEach_of_repeated (mt once.mp repeats) found

end

namespace OwnerKeys

/-- A thing keeps the key of its owner. -/
def decls : List TypeDecl := [
  (TypeDecl.named "Thing").withField
    { FieldDecl.named "owner" "Owner" with ours := some "ownerId" },
  ((TypeDecl.named "Owner").located "db" "Owners").withField (.named "name" "String")]

def owner : Field :=
  { Owned.stored "owner" "Owner" .oneOurs with
    placement := .full "db" "Owners"
    ours := some "ownerId" }

def schema : Schema := ⟨[
  ⟨"Owner", .full "db" "Owners", false, [Owned.stored "name" "String" .embedded]⟩,
  ⟨"Thing", .unknown, false, [owner]⟩]⟩

def scope : Scope := ⟨.ofCatalog (.ofSchema schema) {}, ⟨"req", .null⟩⟩

def info : FieldInfo := ⟨"Thing", "owner", .of [("name", .empty)]⟩

def resolver : FieldResolver := ⟨"Thing", owner, .ours⟩

def location : Location := ⟨"db", "Owners"⟩

theorem along : scope.AlongKeys decls info resolver "ownerId" location where
  compiled := by
    have settled : Schema.compile none decls = .ok schema := by
      simp only [Schema.compile, Schema.build, Schema.ofDecls, Schema.compileTypes,
        TypeDecl.compile, mergeSort_eq_insertionSort]
      rfl
    exact Graph.compiledFrom_ofSchema settled
  known := by decide
  relation := .inl rfl
  flat := rfl
  kept := rfl
  located := rfl

def thing (keys : Value) : Record :=
  .ofValue (.object [("id", .string "1"), ("ownerId", keys)])

def ann : Value := .object [("id", .string "5"), ("name", .string "ann")]

def documents : Documents := fun _ => [ann]

noncomputable def store : Store := .answering .deep documents

theorem answers : store.AnswersFrom .deep documents := Store.answersFrom_answering .deep documents

theorem unique : documents.IdsUnique := fun _ => List.pairwise_singleton _ _

theorem reads (keys : Value) : scope.Reads store [] (thing keys) "ownerId" keys :=
  reads_loaded rfl

theorem plain : Arguments.Plain {} := ⟨rfl, rfl⟩

/-- A null and the key of no owner stand beside the key of one. -/
def beside : Record := thing (.array [.string "5", .null, .string "7"])

theorem ways_along_keys_owner :
    documents.NamedOnce location ["5", "7"] ∧ ∃ queried loadCalls queryCalls,
      (scope.resolve beside {} info).Ends store {} (.new {})
        ((resolver.loaded location [ann]).mapError (scope.framed resolver beside info)) loadCalls ∧
      (scope.resolve beside (Arguments.withFilter Arguments.alwaysTrue {}) info).Ends store {}
        (.new {}) (queried.mapError (scope.framed resolver beside info)) queryCalls ∧
      resolver.SameOutcome location (resolver.loaded location [ann]) queried := by
  have once : documents.NamedOnce location ["5", "7"] := by
    refine List.pairwise_pair.mpr fun same => ?_
    exact absurd same (by decide)
  obtain ⟨_, queried, loadCalls, queryCalls, rfl, loads, queries, same, _⟩ :=
    ways_along_keys along answers unique (Session.rests_new {}) plain (reads _)
      (.list [some "5", none, some "7"]) (by decide)
  exact ⟨once, queried, loadCalls, queryCalls, loads, queries, same once⟩

def twice : Record := thing (.texts ["5", "5"])

/-- A key that is repeated names too many owners to a load, and one to a query. -/
theorem repeated_key_apart :
    scope.AlongKeys decls info resolver "ownerId" location ∧
    store.AnswersFrom .deep documents ∧ documents.IdsUnique ∧ Arguments.Plain {} ∧
    scope.Reads store [] twice "ownerId" (.texts ["5", "5"]) ∧
    (Value.texts ["5", "5"]).KeepsKeys ["5", "5"] ∧
    ["5", "5"].length ≤ scope.graph.settings.loader.batchSize ∧
    ∃ loadCalls queryCalls,
      (scope.resolve twice {} info).Ends store {} (.new {})
        (.error (scope.framed resolver twice info (.cardinality "Thing" "owner" 2))) loadCalls ∧
      (scope.resolve twice (Arguments.withFilter Arguments.alwaysTrue {}) info).Ends store {}
        (.new {}) (.ok (.record (resolver.loadedRecord location ann))) queryCalls ∧
      ¬ resolver.SameOutcome location (.error (.cardinality "Thing" "owner" 2))
        (.ok (.record (resolver.loadedRecord location ann))) := by
  have keeps : (Value.texts ["5", "5"]).KeepsKeys ["5", "5"] := .list [some "5", some "5"]
  obtain ⟨queried, loadCalls, queryCalls, loads, queries, found⟩ :=
    along.both_ways answers unique (Session.rests_new {}) plain (reads _) keeps (by decide)
  have rows : scope.keyedRows resolver documents location info.selection ["5", "5"] = [ann, ann] :=
    rfl
  have once : [ann, ann].dedup = [ann] := by simp
  rw [rows] at loads
  rw [rows, once] at found
  refine ⟨along, answers, unique, plain, reads _, keeps, by decide, loadCalls, queryCalls, loads,
    ?_, nofun⟩
  cases found with
  | records many => cases many
  | one _ hides =>
      cases hides with
      | one => exact queries
      | several _ more => exact absurd more (by decide)

end OwnerKeys

end Scope

end DocGraph
