import DocGraph.Proofs.Fetch.Supplied
import DocGraph.Proofs.Resolve.Laziness
import DocGraph.Proofs.Resolve.OneRecord

namespace DocGraph

open Json

/-- Strategies that look for related records. -/
inductive Strategy.Relates : Strategy → Prop
  | root : Relates .root
  | ours : Relates .ours
  | theirs : Relates .theirs

/-- The records of an answer. Those of a page are not read yet. -/
def Resolved.contents : Resolved → List Record
  | .record only => [only]
  | .records all => all
  | _ => []

theorem keysOf_eq_error {column : String} {value : Value} {fault : ResolveFault}
    (failed : keysOf column value = .error fault) : ∃ other, fault = .invalidKey column other := by
  cases value with
  | null => cases failed
  | string id => cases failed
  | array items =>
      rw [keysOf, ← fault?_eq_some, fault?_mapM] at failed
      obtain ⟨item, _, failed⟩ := List.exists_of_findSome?_eq_some failed
      cases item with
      | string id => cases failed
      | _ => exact ⟨_, (Option.some.inj failed).symm⟩
  | _ =>
      cases failed
      exact ⟨_, rfl⟩

namespace Scope

section

variable (scope : Scope) (supply : Supply) (resolver : FieldResolver)

/-- Why a field fails. -/
inductive Fails (source : Record) (arguments : Arguments) : ResolveFault → Prop
  | noOurs (strategy : resolver.strategy = .ours) (unkept : resolver.field.ours = none) :
      Fails source arguments (resolver.missingKey "ours")
  | noTheirs (strategy : resolver.strategy = .theirs) (unkept : resolver.field.theirs = none) :
      Fails source arguments (resolver.missingKey "theirs")
  | noId (unidentified : source.id? = none) :
      Fails source arguments (resolver.missingKey Column.id)
  | key (column : String) (value : Value) : Fails source arguments (.invalidKey column value)
  | filter {error : QueryError} (refused : Filter.ofInput arguments.filter = .error error) :
      Fails source arguments (.query error)
  | sort {error : QueryError} (refused : SortKey.ofInput arguments.sort = .error error) :
      Fails source arguments (.query error)
  | location (related : resolver.strategy.Relates)
      (unlocated : resolver.field.placement.location? = none) :
      Fails source arguments (.missingLocation resolver.typename resolver.field.fieldname)
  | select {columns : List String} {filters : List Filter} {keys : List SortKey}
      {error : QueryError} (related : resolver.strategy.Relates)
      (refused : scope.graph.catalog.select resolver.field.returnTypename columns filters keys =
        .error error) : Fails source arguments (.query error)
  | count {filters : List Filter} {error : QueryError} (related : resolver.strategy.Relates)
      (refused : scope.graph.catalog.count resolver.field.returnTypename filters = .error error) :
      Fails source arguments (.query error)
  | column {origin : Origin} {column : String} {error : LoadError}
      (given : supply.load scope.context (origin.columnRequest column) (.error error)) :
      Fails source arguments (.loader error)
  | records {location : Location} {ids : List String} {selection : Selection} {error : LoadError}
      (fits : ids.length ≤ scope.graph.settings.loader.batchSize)
      (given : supply.load scope.context
        (resolver.loadRequest scope.graph.catalog location ids selection) (.error error)) :
      Fails source arguments (.loader error)
  | cardinality (rows : Nat) : Fails source arguments
      (.cardinality resolver.typename resolver.field.fieldname rows)
  | store (error : StoreError) : Fails source arguments (.store error)

/-- A row that came with a reply to what a field asks for, and where it came from. -/
inductive Fetched (selection : Selection) : Location → Value → Prop
  | loaded {location : Location} {ids : List String} {rows : List (Option Value)} {row : Value}
      (given : supply.load scope.context
        (resolver.loadRequest scope.graph.catalog location ids selection) (.ok rows))
      (member : some row ∈ rows) : Fetched selection location row
  | drained {location : Location} {filters : List Filter} {keys : List SortKey}
      {statement : Statement} {rows : List Value} {row : Value}
      (selects : scope.graph.catalog.select resolver.field.returnTypename
        (scope.graph.catalog.selectedColumns resolver.field.returnTypename (some selection))
        filters keys = .ok statement)
      (given : supply.rows (scope.relatedCall location statement none) (.ok rows))
      (member : row ∈ rows) : Fetched selection location row
  | queried {location : Location} {filters : List Filter} {keys : List SortKey}
      {statement : Statement} {page : StorePage} {row : Value}
      (selects : scope.graph.catalog.select resolver.field.returnTypename
        (scope.graph.catalog.selectedColumns resolver.field.returnTypename (some selection))
        filters keys = .ok statement)
      (given : supply.page (scope.relatedCall location statement (some 2)) (.ok page))
      (member : row ∈ page.items) : Fetched selection location row

/-- A record that a field answers with: a fetched row, or a value inside the parent. -/
inductive Holds (selection : Selection) : Record → Prop
  | row {location : Location} {row : Value} (kind : RowKind)
      (fetched : scope.Fetched supply resolver selection location row) :
      Holds selection (.ofRow kind resolver.field.returnTypename location row)
  | inside (value : Value) : Holds selection (.ofValue value)

/-- A page that a field hands out before any of it is read. -/
structure Opens (selection : Selection) (page : Page) : Prop where
  unread : page.window = none
  context : page.context = scope.context
  typename : page.request.typename = resolver.field.returnTypename
  selects : ∃ filters keys, scope.graph.catalog.select resolver.field.returnTypename
    (scope.graph.catalog.selectedColumns resolver.field.returnTypename
      (selection.child? "items")) filters keys = .ok page.request.select

structure Answers (selection : Selection) (resolved : Resolved) : Prop where
  records : ∀ record ∈ resolved.contents, scope.Holds supply resolver selection record
  pages : ∀ page, resolved = .page page → scope.Opens resolver selection page

/-- How a field ends. -/
inductive Ends (source : Record) (arguments : Arguments) (selection : Selection) :
    Except ResolveFault Resolved → Prop
  | failed {fault : ResolveFault} (fails : scope.Fails supply resolver source arguments fault) :
      Ends source arguments selection (.error fault)
  | answered {resolved : Resolved} (answers : scope.Answers supply resolver selection resolved) :
      Ends source arguments selection (.ok resolved)

end

section

variable {scope : Scope} {supply : Supply} {resolver : FieldResolver} {source : Record}
  {arguments : Arguments} {selection : Selection}

theorem answers_null : scope.Answers supply resolver selection .null := ⟨nofun, nofun⟩

theorem answers_value (value : Value) : scope.Answers supply resolver selection (.value value) :=
  ⟨nofun, nofun⟩

theorem answers_record {record : Record} (held : scope.Holds supply resolver selection record) :
    scope.Answers supply resolver selection (.record record) where
  records _ member := List.mem_singleton.mp member ▸ held
  pages := nofun

theorem answers_records {records : List Record}
    (held : ∀ record ∈ records, scope.Holds supply resolver selection record) :
    scope.Answers supply resolver selection (.records records) where
  records := held
  pages := nofun

theorem answers_page {page : Page} (opens : scope.Opens resolver selection page) :
    scope.Answers supply resolver selection (.page page) where
  records := nofun
  pages _ same := Resolved.page.inj same ▸ opens

theorem answers_nothing : scope.Answers supply resolver selection resolver.nothing := by
  unfold FieldResolver.nothing
  split
  · exact answers_records fun _ member => absurd member List.not_mem_nil
  · exact answers_null

theorem answers_embedded (catalog : Catalog) (value : Value) :
    scope.Answers supply resolver selection (resolver.embeddedAnswer catalog value) := by
  unfold FieldResolver.embeddedAnswer
  simp only
  split
  · exact answers_null
  · split
    · refine answers_records fun record member => ?_
      obtain ⟨item, _, rfl⟩ := List.mem_map.mp member
      exact .inside item
    · exact answers_value _
  · split
    · exact answers_record (.inside _)
    · exact answers_value _
  · exact answers_value _

theorem answers_column (value : Value) :
    scope.Answers supply resolver selection (FieldResolver.columnAnswer value) := by
  unfold FieldResolver.columnAnswer
  split
  · exact answers_null
  · exact answers_value _

theorem ends_shape {location : Location} {rows : List Value} (kind : RowKind)
    (fetched : ∀ row ∈ rows, scope.Fetched supply resolver selection location row) :
    scope.Ends supply resolver source arguments selection (resolver.shape
      (rows.map (Record.ofRow kind resolver.field.returnTypename location))) := by
  have held : ∀ record ∈ rows.map (Record.ofRow kind resolver.field.returnTypename location),
      scope.Holds supply resolver selection record := by
    intro record member
    obtain ⟨row, inside, rfl⟩ := List.mem_map.mp member
    exact .row kind (fetched row inside)
  unfold FieldResolver.shape
  split
  · exact .answered (answers_records held)
  · split
    · exact .answered answers_null
    · next only =>
        rw [only] at held
        exact .answered (answers_record (held _ (.head _)))
    · exact .failed (.cardinality _)

/-- Where a column is read first, the field ends as it does on whatever is read. -/
theorem yields_readColumn {column : String} {next : Value → FieldFetch}
    (onward : ∀ value, (next value).Yields supply
      (scope.Ends supply resolver source arguments selection)) :
    (scope.readColumn source column next).Yields supply
      (scope.Ends supply resolver source arguments selection) := by
  unfold readColumn
  split
  · exact onward _
  · exact onward _
  · refine .load fun reply given => ?_
    cases reply with
    | error error => exact .done (.failed (.column given))
    | ok rows => exact onward _

theorem fails_of_location {fault : ResolveFault} (relates : resolver.strategy.Relates)
    (failed : resolver.location = .error fault) :
    scope.Fails supply resolver source arguments fault := by
  unfold FieldResolver.location at failed
  split at failed
  · cases failed
  · next unlocated =>
      cases failed
      exact .location relates unlocated

theorem yields_loadRelated {ids : List String} (relates : resolver.strategy.Relates)
    (fits : ids.length ≤ scope.graph.settings.loader.batchSize) :
    (scope.loadRelated resolver ids selection).Yields supply
      (scope.Ends supply resolver source arguments selection) := by
  unfold loadRelated
  split
  · next failed => exact .done (.failed (fails_of_location relates failed))
  · refine .load fun reply given => ?_
    cases reply with
    | error error => exact .done (.failed (.records fits given))
    | ok rows =>
        refine .done (ends_shape .single fun row member => ?_)
        exact .loaded given (by simpa using member)

theorem opens_of_relatedQuery {filters : List Filter} {keys : List SortKey} {request : PageRequest}
    (related : resolver.relatedQuery scope.graph filters keys arguments selection =
      .ok (.page request)) :
    scope.Opens resolver selection { context := scope.context, request } := by
  rw [FieldResolver.relatedQuery] at related
  obtain ⟨location, _, related⟩ := bind_eq_ok.mp related
  split at related
  · obtain ⟨select, selected, related⟩ := bind_eq_ok.mp related
    obtain ⟨count, _, related⟩ := bind_eq_ok.mp related
    cases pure_eq_ok.mp related
    exact ⟨rfl, rfl, rfl, filters, keys, mapError_eq_ok.mp selected⟩
  · obtain ⟨select, _, related⟩ := bind_eq_ok.mp related
    have same := pure_eq_ok.mp related
    split at same <;> cases same

theorem fails_of_relatedQuery {filters : List Filter} {keys : List SortKey} {fault : ResolveFault}
    (relates : resolver.strategy.Relates)
    (failed : resolver.relatedQuery scope.graph filters keys arguments selection = .error fault) :
    scope.Fails supply resolver source arguments fault := by
  rw [FieldResolver.relatedQuery] at failed
  rcases bind_eq_error.mp failed with failed | ⟨location, _, failed⟩
  · exact fails_of_location relates failed
  · split at failed
    · rcases bind_eq_error.mp failed with failed | ⟨select, _, failed⟩
      · obtain ⟨error, refused, rfl⟩ := mapError_eq_error.mp failed
        exact .select relates refused
      · rcases bind_eq_error.mp failed with failed | ⟨count, _, failed⟩
        · obtain ⟨error, refused, rfl⟩ := mapError_eq_error.mp failed
          exact .count relates refused
        · cases failed
    · rcases bind_eq_error.mp failed with failed | ⟨select, _, failed⟩
      · obtain ⟨error, refused, rfl⟩ := mapError_eq_error.mp failed
        exact .select relates refused
      · cases failed

theorem yields_query (relates : resolver.strategy.Relates) (filters : List Filter)
    (keys : List SortKey) :
    (scope.execute resolver arguments selection (.query filters keys)).Yields supply
      (scope.Ends supply resolver source arguments selection) := by
  simp only [execute]
  cases related : resolver.relatedQuery scope.graph filters keys arguments selection with
  | error fault => exact .done (.failed (fails_of_relatedQuery relates related))
  | ok query =>
      cases paginated : resolver.field.isPaginated with
      | true =>
          obtain ⟨request, rfl⟩ := FieldResolver.relatedQuery_paginated paginated related
          exact .done (.answered (answers_page (opens_of_relatedQuery related)))
      | false =>
          obtain ⟨location, select, _, selects, rfl⟩ :=
            FieldResolver.relatedQuery_flat paginated related
          cases many : resolver.field.returnMany with
          | true =>
              refine .drain fun reply given => ?_
              cases reply with
              | error error => exact .done (.failed (.store error))
              | ok rows =>
                  refine .done (.answered (answers_records fun record member => ?_))
                  obtain ⟨row, inside, rfl⟩ := List.mem_map.mp member
                  exact .row .list (.drained selects given inside)
          | false =>
              refine .query fun reply given => ?_
              cases reply with
              | error error => exact .done (.failed (.store error))
              | ok page => exact .done (ends_shape .single fun row => .queried selects given)

theorem fails_of_clientQuery {fault : ResolveFault}
    (failed : FieldResolver.clientQuery arguments = .error fault) :
    scope.Fails supply resolver source arguments fault := by
  rw [FieldResolver.clientQuery] at failed
  rcases bind_eq_error.mp failed with failed | ⟨filters, _, failed⟩
  · obtain ⟨error, refused, rfl⟩ := mapError_eq_error.mp failed
    exact .filter refused
  · rcases bind_eq_error.mp failed with failed | ⟨keys, _, failed⟩
    · obtain ⟨error, refused, rfl⟩ := mapError_eq_error.mp failed
      exact .sort refused
    · cases failed

theorem yields_root (strategy : resolver.strategy = .root) :
    (scope.executePlanned resolver arguments selection
      (FieldResolver.planRoot arguments)).Yields supply
      (scope.Ends supply resolver source arguments selection) := by
  cases planned : FieldResolver.planRoot arguments with
  | error fault =>
      rcases bind_eq_error.mp planned with failed | ⟨_, _, failed⟩
      · exact .done (.failed (fails_of_clientQuery failed))
      · cases failed
  | ok plan =>
      obtain ⟨⟨filters, keys⟩, _, planned⟩ := bind_eq_ok.mp planned
      obtain rfl := pure_eq_ok.mp planned
      exact yields_query (strategy ▸ .root) filters keys

theorem fails_of_planOurs {column : String} {value : Value} {fault : ResolveFault} {batchSize : Nat}
    (failed : resolver.planOurs batchSize arguments column value = .error fault) :
    scope.Fails supply resolver source arguments fault := by
  rw [FieldResolver.planOurs] at failed
  rcases bind_eq_error.mp failed with failed | ⟨ids, _, failed⟩
  · obtain ⟨other, rfl⟩ := keysOf_eq_error failed
    exact .key column other
  · rcases bind_eq_error.mp failed with failed | ⟨⟨filters, keys⟩, _, failed⟩
    · exact fails_of_clientQuery failed
    · simp only at failed
      split at failed
      · cases failed
      · split at failed <;> cases failed

/-- Only keys that one batch takes are loaded. -/
theorem fits_of_planOurs {batchSize : Nat} {column : String} {value : Value} {ids : List String}
    (planned : resolver.planOurs batchSize arguments column value = .ok (.load ids)) :
    keysOf column value = .ok ids ∧ ids.length ≤ batchSize := by
  rw [FieldResolver.planOurs] at planned
  obtain ⟨read, listed, planned⟩ := bind_eq_ok.mp planned
  obtain ⟨⟨filters, keys⟩, _, planned⟩ := bind_eq_ok.mp planned
  simp only at planned
  split at planned
  · next gated =>
      have fits : read.length ≤ batchSize := by
        simp only [Bool.and_eq_true, decide_eq_true_eq] at gated
        exact gated.2
      have same := pure_eq_ok.mp planned
      split at same
      · cases same
      · cases same
        exact ⟨listed, fits⟩
  · split at planned <;> cases pure_eq_ok.mp planned

theorem yields_ours (strategy : resolver.strategy = .ours) (column : String) (value : Value) :
    (scope.executePlanned resolver arguments selection (resolver.planOurs
      scope.graph.settings.loader.batchSize arguments column value)).Yields supply
      (scope.Ends supply resolver source arguments selection) := by
  cases planned : resolver.planOurs scope.graph.settings.loader.batchSize arguments column
      value with
  | error fault => exact .done (.failed (fails_of_planOurs planned))
  | ok plan =>
      rcases resolver.planOurs_spec planned with rfl | ⟨ids, rfl⟩ | ⟨_, _, _, _, _, rfl⟩
      · exact .done (.answered answers_nothing)
      · exact yields_loadRelated (strategy ▸ .ours) (fits_of_planOurs planned).2
      · exact yields_query (strategy ▸ .ours) _ _

theorem yields_theirs (strategy : resolver.strategy = .theirs) :
    (scope.executePlanned resolver arguments selection
      (resolver.planTheirs scope.graph.catalog source arguments)).Yields supply
      (scope.Ends supply resolver source arguments selection) := by
  cases planned : resolver.planTheirs scope.graph.catalog source arguments with
  | error fault =>
      rw [FieldResolver.planTheirs] at planned
      split at planned
      · next unkept =>
          cases planned
          exact .done (.failed (.noTheirs strategy unkept))
      · next unidentified =>
          cases planned
          exact .done (.failed (.noId unidentified))
      · rcases bind_eq_error.mp planned with failed | ⟨_, _, failed⟩
        · exact .done (.failed (fails_of_clientQuery failed))
        · cases failed
  | ok plan =>
      obtain ⟨_, _, _, _, _, _, _, rfl⟩ := resolver.planTheirs_spec planned
      exact yields_query (strategy ▸ .theirs) _ _

/-- Whatever the replies are, a field ends in one of its ways. -/
theorem yields_fetchField (source : Record) (arguments : Arguments) (selection : Selection) :
    (scope.fetchField resolver source arguments selection).Yields supply
      (scope.Ends supply resolver source arguments selection) := by
  cases strategy : resolver.strategy with
  | root =>
      simp only [fetchField, strategy]
      exact yields_root strategy
  | ours =>
      simp only [fetchField, strategy]
      cases kept : resolver.field.ours with
      | none => exact .done (.failed (.noOurs strategy kept))
      | some column => exact yields_readColumn fun value => yields_ours strategy column value
  | theirs =>
      simp only [fetchField, strategy]
      exact yields_theirs strategy
  | embedded =>
      simp only [fetchField, strategy]
      exact yields_readColumn fun value => .done (.answered (answers_embedded _ value))
  | column =>
      simp only [fetchField, strategy]
      exact yields_readColumn fun value => .done (.answered (answers_column value))

/-- A field with a resolver ends in one of its ways, and its faults pass through the hook. -/
theorem yields_resolve {info : FieldInfo}
    (known : scope.graph.resolver? info.parentType info.fieldname = some resolver) :
    (scope.resolve source arguments info).Yields supply fun result =>
      ∃ ended, scope.Ends supply resolver source arguments info.selection ended ∧
        result = ended.mapError fun fault =>
          scope.graph.onError (.traced (frame resolver source) (.ofFault fault)) info := by
  rw [resolve, known]
  refine .map fun ended leads => ?_
  exact ⟨ended, yields_fetchField source arguments info.selection ended leads, rfl⟩

end

end Scope

end DocGraph
