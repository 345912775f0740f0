import DocGraph.Proofs.Resolve.Provenance
import DocGraph.Proofs.Resolve.Tables

/-!
# What a selection fetches ahead

Which column a field starts from is decided where the field is resolved, and once more where
the rows of its parent are asked for. Both decide alike: a record with the columns of a
selection is enough for every field that the selection names.
-/

namespace DocGraph

open Json

theorem Catalog.mem_selectedColumns {catalog : Catalog} {typename name column : String}
    {selection : Selection} {field : Field} (named : name ∈ selection.names)
    (found : catalog.field? typename name = some field)
    (needed : field.neededColumn? = some column) :
    column ∈ catalog.selectedColumns typename (some selection) := by
  refine List.mem_filterMap.mpr ⟨name, named, ?_⟩
  rw [found]
  exact needed

namespace Scope

/-- If a field loads at all, it loads related records, by the keys that its record holds. -/
inductive LoadsByKeys {α : Type} (scope : Scope) (record : Record) (info : FieldInfo) :
    Fetch α → Prop
  | done (result : α) : LoadsByKeys scope record info (.done result)
  | query (asked : StoreQuery) (next : Except StoreError StorePage → Fetch α) :
      LoadsByKeys scope record info (.query asked next)
  | drain (asked : StoreQuery) (next : Except StoreError (List Value) → Fetch α) :
      LoadsByKeys scope record info (.drain asked next)
  | load {resolver : FieldResolver} {column : String} {value : Value} {ids : List String}
      (known : scope.graph.resolver? info.parentType info.fieldname = some resolver)
      (kept : resolver.field.ours = some column) (held : record.get? column = some value)
      (keys : keysOf column value = .ok ids) (location : Location) (next : LoadReply → Fetch α) :
      LoadsByKeys scope record info (.load scope.context
        (resolver.loadRequest scope.graph.catalog location ids info.selection) next)

theorem LoadsByKeys.map {α β : Type} {scope : Scope} {record : Record} {info : FieldInfo}
    {stage : Fetch α} (loads : scope.LoadsByKeys record info stage) (change : α → β) :
    scope.LoadsByKeys record info (stage.map change) := by
  cases loads with
  | done => exact .done _
  | query => exact .query _ _
  | drain => exact .drain _ _
  | load known kept held keys location next => exact .load known kept held keys location _

/-- A record is enough to resolve a field: no column of it is fetched, and a value inside of it
is there at once. -/
structure AnsweredFrom (scope : Scope) (record : Record) (arguments : Arguments)
    (info : FieldInfo) : Prop where
  alone : scope.FetchesNoColumn record arguments info
  loads : (scope.resolve record arguments info).Always (scope.LoadsByKeys record info)
  embedded : ∀ field, scope.graph.catalog.field? info.parentType info.fieldname = some field →
    field.relation = .embedded → ∃ answer, scope.resolve record arguments info = .done answer

section

variable {scope : Scope} {decls : List TypeDecl} {resolver : FieldResolver} {record : Record}
  {arguments : Arguments} {info : FieldInfo}

/-- A field starts from the column that a selection of it asks for. -/
theorem startColumn?_eq (compiled : scope.graph.CompiledFrom decls)
    (known : scope.graph.resolver? info.parentType info.fieldname = some resolver) :
    resolver.startColumn? = resolver.field.neededColumn? := by
  have follows := compiled.follows known
  unfold FieldResolver.startColumn? Field.neededColumn?
  generalize resolver.strategy = strategy at follows
  generalize resolver.field.relation = relation at follows
  cases follows <;> rfl

theorem always_query (filters : List Filter) (keys : List SortKey) (selection : Selection) :
    (scope.execute resolver arguments selection (.query filters keys)).Always
      (scope.LoadsByKeys record info) := by
  simp only [execute]
  cases resolver.relatedQuery scope.graph filters keys arguments selection with
  | error fault => exact .done (.done _)
  | ok query =>
      cases query with
      | page request => exact .done (.done _)
      | list location statement =>
          refine .drain (.drain _ _) fun reply => ?_
          cases reply <;> exact .done (.done _)
      | single location statement =>
          refine .query (.query _ _) fun reply => ?_
          cases reply <;> exact .done (.done _)

/-- A plan loads by the keys that were planned with, or not at all. -/
theorem always_planned {planned : Except ResolveFault Plan}
    (known : scope.graph.resolver? info.parentType info.fieldname = some resolver)
    (loads : ∀ ids, planned = .ok (.load ids) → ∃ column value,
      resolver.field.ours = some column ∧ record.get? column = some value ∧
        keysOf column value = .ok ids) :
    (scope.executePlanned resolver arguments info.selection planned).Always
      (scope.LoadsByKeys record info) := by
  cases planned with
  | error fault => exact .done (.done _)
  | ok plan =>
      cases plan with
      | answer resolved => exact .done (.done _)
      | query filters keys => exact always_query filters keys info.selection
      | load ids =>
          obtain ⟨column, value, kept, held, keys⟩ := loads ids rfl
          simp only [executePlanned, execute, loadRelated]
          split
          · exact .done (.done _)
          · refine .load (.load known kept held keys _ _) fun reply => ?_
            cases reply <;> exact .done (.done _)

theorem always_loadsByKeys
    (known : scope.graph.resolver? info.parentType info.fieldname = some resolver)
    (held : ∀ column, resolver.startColumn? = some column → (record.get? column).isSome) :
    (scope.fetchField resolver record arguments info.selection).Always
      (scope.LoadsByKeys record info) := by
  unfold FieldResolver.startColumn? at held
  cases strategy : resolver.strategy with
  | root =>
      simp only [fetchField, strategy]
      refine always_planned known fun ids planned => ?_
      obtain ⟨_, _, planned⟩ := bind_eq_ok.mp planned
      cases planned
  | theirs =>
      simp only [fetchField, strategy]
      refine always_planned known fun ids planned => ?_
      obtain ⟨_, _, _, _, _, _, _, same⟩ := resolver.planTheirs_spec planned
      cases same
  | ours =>
      simp only [strategy] at held
      simp only [fetchField, strategy]
      cases kept : resolver.field.ours with
      | none => exact .done (.done _)
      | some column =>
          obtain ⟨value, held⟩ := Option.isSome_iff_exists.mp (held column kept)
          simp only [readColumn, held]
          refine always_planned known fun ids planned => ?_
          exact ⟨column, value, kept, held, (fits_of_planOurs planned).1⟩
  | embedded =>
      simp only [strategy] at held
      obtain ⟨value, held⟩ := Option.isSome_iff_exists.mp (held _ rfl)
      simp only [fetchField, strategy, readColumn, held]
      exact .done (.done _)
  | column =>
      simp only [strategy] at held
      obtain ⟨value, held⟩ := Option.isSome_iff_exists.mp (held _ rfl)
      simp only [fetchField, strategy, readColumn, held]
      exact .done (.done _)

/-- A record with the column that a selection asks for is enough for the field. -/
theorem answeredFrom (compiled : scope.graph.CompiledFrom decls)
    (held : ∀ field column,
      scope.graph.catalog.field? info.parentType info.fieldname = some field →
      field.neededColumn? = some column → (record.get? column).isSome) :
    scope.AnsweredFrom record arguments info := by
  have fields := compiled.resolver? info.parentType info.fieldname
  cases known : scope.graph.resolver? info.parentType info.fieldname with
  | none =>
      rw [known] at fields
      refine ⟨fetchesNoColumn_of_unknown known, ?_, fun field found => ?_⟩
      · simp only [resolve, known]
        exact .done (.done _)
      · rw [found] at fields
        cases fields
  | some resolver =>
      rw [known] at fields
      have held : ∀ column, resolver.startColumn? = some column → (record.get? column).isSome :=
        fun column starts =>
          held _ column fields.symm ((startColumn?_eq compiled known).symm.trans starts)
      refine ⟨fetchesNoColumn_of_held known held, ?_, fun field found embedded => ?_⟩
      · intro rest visits
        rw [resolve, known] at visits
        obtain ⟨before, visited, rfl⟩ := visits.of_map
        exact (always_loadsByKeys known held before visited).map _
      · obtain rfl := Option.some.inj (fields.trans found)
        have follows := compiled.follows known
        unfold FieldResolver.startColumn? at held
        simp only [resolve, known, fetchField]
        rw [embedded] at follows
        generalize resolver.strategy = strategy at held follows
        cases follows with
        | embedded =>
            obtain ⟨value, held⟩ := Option.isSome_iff_exists.mp (held _ rfl)
            simp only [readColumn, held]
            exact ⟨_, rfl⟩
        | column =>
            obtain ⟨value, held⟩ := Option.isSome_iff_exists.mp (held _ rfl)
            simp only [readColumn, held]
            exact ⟨_, rfl⟩

/-- A record with the columns of a selection is enough for the fields that it names. -/
theorem answeredFrom_of_selected (compiled : scope.graph.CompiledFrom decls)
    {typename name : String} {selection : Selection} (named : name ∈ selection.names)
    (loaded : ∀ column ∈ scope.graph.catalog.selectedColumns typename (some selection),
      (record.get? column).isSome) (arguments : Arguments) (below : Selection) :
    scope.AnsweredFrom record arguments ⟨typename, name, below⟩ :=
  answeredFrom compiled fun _ _ found needed =>
    loaded _ (Catalog.mem_selectedColumns named found needed)

end

/-- A row came with a call that asked for enough: if it has the columns that the call lists, it is
enough for every field of a selection. -/
def Prefetched (scope : Scope) (store : Store) (history : History) (typename : String)
    (selection : Selection) (record : Record) : Prop :=
  ∃ query listed, store.Returned history query record.value ∧
    query.statement.columns? = some listed ∧
    ((∀ column ∈ listed, (record.get? column).isSome) → ∀ name ∈ selection.names,
      ∀ arguments below, scope.AnsweredFrom record arguments ⟨typename, name, below⟩)

section

variable {scope : Scope} {decls : List TypeDecl} {store : Store} {history : History}
  {typename : String} {selection : Selection}

theorem prefetched_of_returned (compiled : scope.graph.CompiledFrom decls) {record : Record}
    {query : StoreQuery} (returned : store.Returned history query record.value)
    (lists : ∃ listed, query.statement.columns? = some listed ∧
      ∀ column ∈ scope.graph.catalog.selectedColumns typename (some selection), column ∈ listed) :
    scope.Prefetched store history typename selection record := by
  obtain ⟨listed, reads, all⟩ := lists
  refine ⟨query, listed, returned, reads, fun has name named arguments below => ?_⟩
  exact answeredFrom_of_selected compiled named
    (fun column wanted => has column (all column wanted)) arguments below

/-- A selection fetches ahead what its fields read: a record with its columns is enough for them,
and in every run, the records of a field and of its page came with calls that list these
columns. -/
theorem selection_prefetches (compiled : scope.graph.CompiledFrom decls) :
    (∀ typename selection record,
      (∀ column ∈ scope.graph.catalog.selectedColumns typename (some selection),
        (Record.get? record column).isSome) →
      ∀ name ∈ selection.names, ∀ arguments below,
        scope.AnsweredFrom record arguments ⟨typename, name, below⟩) ∧
    ∀ {store : Store} {settings : LoaderSettings} {session after : Session} {patience place : Nat}
      {jobs : List (Job (Except ResolveError Resolved))}
      {job : Job (Except ResolveError Resolved)} {results : List (Except ResolveError Resolved)}
      {source : Record} {arguments : Arguments} {info : FieldInfo} {resolver : FieldResolver}
      {resolved : Resolved},
      Session.Reached store settings session →
      session.run store settings patience jobs = (.finished results, after) →
      jobs[place]? = some job → job.fetch = scope.resolve source arguments info →
      scope.graph.resolver? info.parentType info.fieldname = some resolver →
      results[place]? = some (.ok resolved) →
        (∀ record ∈ resolved.contents, record.origin.isSome →
          scope.Prefetched store after.history resolver.field.returnTypename info.selection
            record) ∧
        ∀ page, resolved = .page page → ∀ now later items,
          page.Later store after.history now later →
          (now.items store later).outcome = .finished (.ok items) →
          ∀ below, info.selection.child? "items" = some below → ∀ record ∈ items,
            scope.Prefetched store (now.items store later).history resolver.field.returnTypename
              below record := by
  refine ⟨fun typename selection record loaded name named =>
    answeredFrom_of_selected compiled named loaded, ?_⟩
  intro store settings session after patience place jobs job results source arguments info
    resolver resolved reached ran here resolves known succeeds
  have answers := answers_of_run reached ran here resolves known succeeds
  refine ⟨fun record member described => ?_,
    fun page same now later items visited read below child record member => ?_⟩
  · cases answers.records record member with
    | inside value => cases described
    | row kind fetched =>
        obtain ⟨query, gave⟩ := fetched.gave
        exact prefetched_of_returned compiled gave.returned gave.lists
  · have opens := answers.pages page same
    obtain ⟨rows, made, rfl⟩ := Page.items_of_later opens.unread visited read
    obtain ⟨row, inside, rfl⟩ := List.mem_map.mp member
    obtain ⟨filters, keys, selects⟩ := opens.selects
    rw [child] at selects
    exact prefetched_of_returned compiled ⟨rows, made, inside⟩ (Store.lists_of_select selects)

end

namespace Owned

def key : Selection := .of [("thingId", .empty)]

def keyed (paginated : Bool) : FieldInfo :=
  ⟨"Thing", "owner", if paginated then .of [("items", key)] else key⟩

def keyedJobs (paginated : Bool) : List (Job (Except ResolveError Resolved)) :=
  [⟨0, (scope paginated).resolve thing {} (keyed paginated)⟩]

def ownerRecord (kind : RowKind) : Record :=
  ⟨ownerRow, some ⟨kind, "Owner", ⟨"db", "Owners"⟩, "9"⟩⟩

/-- The key of an owner is read from its row, whether it is the answer of the field or an item of
a page. -/
theorem selection_prefetches_owner :
    (∀ arguments below,
      (scope false).AnsweredFrom (ownerRecord .single) arguments ⟨"Owner", "thingId", below⟩) ∧
    (∃ after, (Session.new {}).run oneOwner {} 2 (keyedJobs false) =
        (.finished [.ok (.record (ownerRecord .single))], after) ∧
      (scope false).Prefetched oneOwner after.history "Owner" key (ownerRecord .single)) ∧
    ∃ page after, (Session.new {}).run oneOwner {} 2 (keyedJobs true) =
        (.finished [.ok (.page page)], after) ∧
      (page.items oneOwner after.history).outcome = .finished (.ok [ownerRecord .list]) ∧
      (scope true).Prefetched oneOwner (page.items oneOwner after.history).history "Owner" key
        (ownerRecord .list) := by
  obtain ⟨enough, flat⟩ := @selection_prefetches (scope false) _ compiled_flat
  obtain ⟨_, paged⟩ := @selection_prefetches (scope true) _ compiled_paginated
  refine ⟨?_, ⟨_, rfl, ?_⟩, _, _, rfl, rfl, ?_⟩
  · exact enough "Owner" key (ownerRecord .single) (by decide) "thingId" (.head _)
  · exact (@flat oneOwner {} (.new {}) _ 2 0 (keyedJobs false) _ _ thing {} (keyed false)
      (resolver false) _ .new rfl rfl rfl (by decide) rfl).1 _ (.head _) rfl
  · exact (@paged oneOwner {} (.new {}) _ 2 0 (keyedJobs true) _ _ thing {} (keyed true)
      (resolver true) _ .new rfl rfl rfl (by decide) rfl).2 _ rfl _ _ _ .fresh rfl key rfl _
      (.head _)

end Owned

end Scope

end DocGraph
