import DocGraph.Proofs.Query.Counting
import DocGraph.Proofs.Resolve.Paging
import DocGraph.Proofs.Schema.Inheritance

namespace DocGraph

open Json

namespace FieldResolver

variable (resolver : FieldResolver)

def queriedColumns (catalog : Catalog) (selection : Selection) : List String :=
  catalog.selectedColumns resolver.field.returnTypename
    (if resolver.field.isPaginated then selection.child? "items" else some selection)

/-- The query that takes its statements from an explanation. -/
def queryOf (paging : PagingSettings) (location : Location) (arguments : Arguments)
    (explanation : Explanation) : RelatedQuery :=
  if resolver.field.isPaginated then
    .page {
      typename := resolver.field.returnTypename
      location
      select := explanation.select
      count := explanation.count
      cursor := arguments.cursor
      limit := some (paging.effectiveLimit arguments.limit) }
  else if resolver.field.returnMany then .list location explanation.select
  else .single location explanation.select

/-- The filters and sort keys that a field queries by: those of its arguments, with the
condition of its relation in front. -/
inductive QueriesBy (catalog : Catalog) (source : Record) (arguments : Arguments) :
    List Filter → List SortKey → Prop
  | root {client : List Filter} {keys : List SortKey} (strategy : resolver.strategy = .root)
      (read : clientQuery arguments = .ok (client, keys)) :
      QueriesBy catalog source arguments client keys
  | ours {column : String} {value : Value} {ids : List String} {client : List Filter}
      {keys : List SortKey} (strategy : resolver.strategy = .ours)
      (kept : resolver.field.ours = some column) (listed : keysOf column value = .ok ids)
      (read : clientQuery arguments = .ok (client, keys)) :
      QueriesBy catalog source arguments (resolver.idCondition ids :: client) keys
  | theirs {column id : String} {client : List Filter} {keys : List SortKey}
      (strategy : resolver.strategy = .theirs) (kept : resolver.field.theirs = some column)
      (parent : source.id? = some id) (read : clientQuery arguments = .ok (client, keys)) :
      QueriesBy catalog source arguments
        (resolver.reverseCondition catalog column id :: client) keys

variable {resolver} {arguments : Arguments} {selection : Selection}

theorem relatedQuery_eq (graph : Graph) (filters : List Filter) (keys : List SortKey)
    (arguments : Arguments) (selection : Selection) :
    resolver.relatedQuery graph filters keys arguments selection = (do
      let location ← resolver.location
      let explanation ← (graph.catalog.explanation resolver.field.returnTypename
        (resolver.queriedColumns graph.catalog selection) filters keys).mapError ResolveFault.query
      return resolver.queryOf graph.settings.paging location arguments explanation) := by
  cases located : resolver.location with
  | error fault =>
      rw [relatedQuery, located]
      rfl
  | ok location =>
      cases paginated : resolver.field.isPaginated with
      | true =>
          simp only [relatedQuery, queriedColumns, queryOf, located, paginated, if_true,
            Catalog.select_eq_map]
          cases explained : graph.catalog.explanation resolver.field.returnTypename
              (graph.catalog.selectedColumns resolver.field.returnTypename
                (selection.child? "items")) filters keys with
          | error error => rfl
          | ok explanation =>
              rw [Catalog.count_of_explanation explained]
              rfl
      | false =>
          simp only [relatedQuery, queriedColumns, queryOf, located, paginated,
            Bool.false_eq_true, if_false, Catalog.select_eq_map]
          cases graph.catalog.explanation resolver.field.returnTypename
              (graph.catalog.selectedColumns resolver.field.returnTypename (some selection))
              filters keys with
          | error error => rfl
          | ok explanation => rfl

theorem queriesBy_of_planOurs {catalog : Catalog} {source : Record} {batchSize : Nat}
    {column : String} {value : Value} {filters : List Filter} {keys : List SortKey}
    (strategy : resolver.strategy = .ours) (kept : resolver.field.ours = some column)
    (planned : resolver.planOurs batchSize arguments column value = .ok (.query filters keys)) :
    resolver.QueriesBy catalog source arguments filters keys := by
  rw [planOurs] at planned
  obtain ⟨ids, listed, planned⟩ := bind_eq_ok.mp planned
  obtain ⟨⟨client, sorted⟩, read, planned⟩ := bind_eq_ok.mp planned
  simp only at planned
  split at planned
  · have same := pure_eq_ok.mp planned
    split at same <;> cases same
  · split at planned
    · cases pure_eq_ok.mp planned
    · cases pure_eq_ok.mp planned
      exact .ours strategy kept listed read

theorem queriesBy_of_planTheirs {catalog : Catalog} {source : Record} {plan : Plan}
    (strategy : resolver.strategy = .theirs)
    (planned : resolver.planTheirs catalog source arguments = .ok plan) :
    ∃ filters keys, resolver.QueriesBy catalog source arguments filters keys ∧
      plan = .query filters keys := by
  rw [planTheirs] at planned
  split at planned
  · contradiction
  · contradiction
  · next column id kept parent =>
      obtain ⟨⟨client, keys⟩, read, planned⟩ := bind_eq_ok.mp planned
      exact ⟨_, keys, .theirs strategy kept parent read, (pure_eq_ok.mp planned).symm⟩

end FieldResolver

/-- The answer of a stage that has come to a page. -/
def Fetch.PagesAre (holds : Page → Prop) (stage : FieldFetch) : Prop :=
  ∀ page, stage = .done (.ok (.page page)) → holds page

theorem Fetch.pagesAre_of_not_isPage {holds : Page → Prop} {resolved : Resolved}
    (other : ¬ resolved.IsPage) : PagesAre holds (.done (.ok resolved)) := by
  intro page same
  cases same
  exact absurd (.page page) other

theorem Fetch.pagesAre_error {holds : Page → Prop} (fault : ResolveFault) :
    PagesAre holds (.done (.error fault)) := nofun

theorem FieldResolver.not_isPage_nothing (resolver : FieldResolver) :
    ¬ resolver.nothing.IsPage := by
  unfold nothing
  split <;> exact nofun

theorem FieldResolver.not_isPage_of_shape {resolver : FieldResolver} {records : List Record}
    {resolved : Resolved} (shaped : resolver.shape records = .ok resolved) :
    ¬ resolved.IsPage := by
  intro page
  unfold shape at shaped
  split at shaped
  · cases shaped
    cases page
  · split at shaped <;> cases shaped <;> cases page

namespace Scope

section

variable (scope : Scope) (resolver : FieldResolver) (source : Record) (arguments : Arguments)
  (selection : Selection)

/-- The total of a page counts what its window lists. -/
structure CountsListed (page : Page) : Prop where
  located : resolver.location = .ok page.windowQuery.location ∧
    resolver.location = .ok page.countQuery.location
  describes : ∃ filters keys, resolver.QueriesBy scope.graph.catalog source arguments filters keys ∧
    scope.graph.catalog.Describes resolver.field.returnTypename
      (resolver.queriedColumns scope.graph.catalog selection) filters keys
      ⟨page.windowQuery.statement, page.countQuery.statement⟩

end

section

variable {scope : Scope} {resolver : FieldResolver} {source : Record} {arguments : Arguments}
  {selection : Selection} {holds : Page → Prop}

theorem pagesAre_shape (records : List Record) :
    (Fetch.done (resolver.shape records)).Always (Fetch.PagesAre holds) := by
  apply Fetch.Always.done
  cases shaped : resolver.shape records with
  | error fault => exact Fetch.pagesAre_error fault
  | ok resolved => exact Fetch.pagesAre_of_not_isPage (FieldResolver.not_isPage_of_shape shaped)

theorem pagesAre_readColumn {column : String} {next : Value → FieldFetch}
    (onward : ∀ value, (next value).Always (Fetch.PagesAre holds)) :
    (scope.readColumn source column next).Always (Fetch.PagesAre holds) :=
  always_readColumn (fun _ _ _ => nofun) Fetch.pagesAre_error column onward

theorem pagesAre_loadRelated (ids : List String) :
    (scope.loadRelated resolver ids selection).Always (Fetch.PagesAre holds) := by
  unfold loadRelated
  split
  · exact .done (Fetch.pagesAre_error _)
  · refine .load nofun fun reply => ?_
    cases reply with
    | error fault => exact .done (Fetch.pagesAre_error _)
    | ok rows => exact pagesAre_shape _

theorem pagesAre_queryRelated {query : RelatedQuery}
    (page : ∀ request, query = .page request → holds { context := scope.context, request }) :
    (scope.queryRelated resolver query).Always (Fetch.PagesAre holds) := by
  cases query with
  | page request =>
      refine .done fun opened same => ?_
      cases same
      exact page request rfl
  | list location statement =>
      refine .drain nofun fun reply => ?_
      cases reply with
      | error fault => exact .done (Fetch.pagesAre_error _)
      | ok rows => exact .done nofun
  | single location statement =>
      refine .query nofun fun reply => ?_
      cases reply with
      | error fault => exact .done (Fetch.pagesAre_error _)
      | ok page => exact pagesAre_shape _

theorem pagesAre_query {filters : List Filter} {keys : List SortKey}
    (queries : resolver.QueriesBy scope.graph.catalog source arguments filters keys) :
    (scope.execute resolver arguments selection (.query filters keys)).Always
      (Fetch.PagesAre (scope.CountsListed resolver source arguments selection)) := by
  simp only [execute]
  cases related : resolver.relatedQuery scope.graph filters keys arguments selection with
  | error fault => exact .done (Fetch.pagesAre_error _)
  | ok query =>
      rw [FieldResolver.relatedQuery_eq] at related
      obtain ⟨location, located, related⟩ := bind_eq_ok.mp related
      obtain ⟨explanation, explained, related⟩ := bind_eq_ok.mp related
      have describes := Catalog.describes_of_explanation (mapError_eq_ok.mp explained)
      obtain rfl := pure_eq_ok.mp related
      refine pagesAre_queryRelated fun request same => ?_
      unfold FieldResolver.queryOf at same
      split at same
      · cases same
        exact ⟨⟨located, located⟩, filters, keys, queries, describes⟩
      · split at same <;> cases same

/-- Whatever the replies are, a field comes to no other pages. -/
theorem pagesAre_fetchField : (scope.fetchField resolver source arguments selection).Always
    (Fetch.PagesAre (scope.CountsListed resolver source arguments selection)) := by
  cases strategy : resolver.strategy with
  | root =>
      simp only [fetchField, strategy]
      cases planned : FieldResolver.planRoot arguments with
      | error fault => exact .done (Fetch.pagesAre_error _)
      | ok plan =>
          obtain ⟨⟨filters, keys⟩, read, planned⟩ := bind_eq_ok.mp planned
          obtain rfl := pure_eq_ok.mp planned
          exact pagesAre_query (.root strategy read)
  | ours =>
      simp only [fetchField, strategy]
      cases kept : resolver.field.ours with
      | none => exact .done (Fetch.pagesAre_error _)
      | some column =>
          refine pagesAre_readColumn fun value => ?_
          cases planned : resolver.planOurs scope.graph.settings.loader.batchSize arguments column
              value with
          | error fault => exact .done (Fetch.pagesAre_error _)
          | ok plan =>
              rcases resolver.planOurs_spec planned with rfl | ⟨ids, rfl⟩ | ⟨_, _, _, _, _, rfl⟩
              · exact .done (Fetch.pagesAre_of_not_isPage resolver.not_isPage_nothing)
              · exact pagesAre_loadRelated ids
              · exact pagesAre_query (FieldResolver.queriesBy_of_planOurs strategy kept planned)
  | theirs =>
      simp only [fetchField, strategy]
      cases planned : resolver.planTheirs scope.graph.catalog source arguments with
      | error fault => exact .done (Fetch.pagesAre_error _)
      | ok plan =>
          obtain ⟨filters, keys, queries, rfl⟩ :=
            FieldResolver.queriesBy_of_planTheirs strategy planned
          exact pagesAre_query queries
  | embedded =>
      simp only [fetchField, strategy]
      exact pagesAre_readColumn fun value =>
        .done (Fetch.pagesAre_of_not_isPage (FieldResolver.not_isPage_embeddedAnswer _ value))
  | column =>
      simp only [fetchField, strategy]
      exact pagesAre_readColumn fun value =>
        .done (Fetch.pagesAre_of_not_isPage (FieldResolver.not_isPage_columnAnswer value))

theorem execute_query {location : Location} (located : resolver.location = .ok location)
    (filters : List Filter) (keys : List SortKey) :
    scope.execute resolver arguments selection (.query filters keys) =
      match scope.graph.catalog.explanation resolver.field.returnTypename
        (resolver.queriedColumns scope.graph.catalog selection) filters keys with
      | .error error => .done (.error (.query error))
      | .ok explanation => scope.queryRelated resolver
          (resolver.queryOf scope.graph.settings.paging location arguments explanation) := by
  simp only [execute, FieldResolver.relatedQuery_eq, located]
  cases scope.graph.catalog.explanation resolver.field.returnTypename
      (resolver.queriedColumns scope.graph.catalog selection) filters keys with
  | error error => rfl
  | ok explanation => rfl

/-- A field that queries its container does so as its arguments are explained. -/
theorem fetchField_root {location : Location} (strategy : resolver.strategy = .root)
    (located : resolver.location = .ok location) :
    scope.fetchField resolver source arguments selection =
      match scope.graph.catalog.explain resolver.field.returnTypename
        (resolver.queriedColumns scope.graph.catalog selection) arguments.filter arguments.sort with
      | .error error => .done (.error (.query error))
      | .ok explanation => scope.queryRelated resolver
          (resolver.queryOf scope.graph.settings.paging location arguments explanation) := by
  simp only [fetchField, strategy, FieldResolver.planRoot, Catalog.explain_eq,
    FieldResolver.clientQuery]
  cases Filter.ofInput arguments.filter with
  | error error => rfl
  | ok filters =>
      cases SortKey.ofInput arguments.sort with
      | error error => rfl
      | ok keys => exact execute_query located filters keys

theorem queries_queryOf (paging : PagingSettings) (location : Location)
    (flat : resolver.field.isPaginated = false) (explanation : Explanation) (replies : Replies) :
    (scope.queryRelated resolver
        (resolver.queryOf paging location arguments explanation)).queries replies =
      [scope.relatedCall location explanation.select
        (if resolver.field.returnMany then none else some 2)] := by
  simp only [FieldResolver.queryOf, flat, Bool.false_eq_true, if_false]
  cases resolver.field.returnMany with
  | true =>
      simp only [if_true, queryRelated, Fetch.queries]
      cases replies.rows (scope.relatedCall location explanation.select none) <;> rfl
  | false =>
      simp only [Bool.false_eq_true, if_false, queryRelated, Fetch.queries]
      cases replies.page (scope.relatedCall location explanation.select (some 2)) <;> rfl

end

/-- A field asks what explains its arguments, and fails where there is no explanation. -/
structure SelectsExplained (scope : Scope) (resolver : FieldResolver) (source : Record)
    (arguments : Arguments) (info : FieldInfo) (location : Location)
    (explained : Except QueryError Explanation) : Prop where
  failed : ∀ error, explained = .error error →
    scope.resolve source arguments info =
      .done (.error (scope.framed resolver source info (.query error)))
  page : ∀ explanation, explained = .ok explanation → resolver.field.isPaginated = true →
    ∃ page, scope.resolve source arguments info = .done (.ok (.page page)) ∧
      page.windowQuery.location = location ∧
      page.windowQuery.statement = explanation.select ∧
      page.countQuery.statement = explanation.count
  list : ∀ explanation, explained = .ok explanation → resolver.field.isPaginated = false →
    ∀ replies, (scope.resolve source arguments info).queries replies =
      [scope.relatedCall location explanation.select
        (if resolver.field.returnMany then none else some 2)]

section

variable {scope : Scope} {resolver : FieldResolver} {source : Record} {arguments : Arguments}
  {info : FieldInfo}

theorem countsListed_of_visits {page : Page}
    (known : scope.graph.resolver? info.parentType info.fieldname = some resolver)
    (visits : (scope.resolve source arguments info).Visits (.done (.ok (.page page)))) :
    scope.CountsListed resolver source arguments info.selection page :=
  pagesAre_fetchField _ (visits_of_resolve known visits) page rfl

theorem selectsExplained {location : Location}
    (known : scope.graph.resolver? info.parentType info.fieldname = some resolver)
    (strategy : resolver.strategy = .root) (located : resolver.location = .ok location) :
    scope.SelectsExplained resolver source arguments info location
      (scope.graph.catalog.explain resolver.field.returnTypename
        (resolver.queriedColumns scope.graph.catalog info.selection)
        arguments.filter arguments.sort) where
  failed error unexplained := by
    rw [resolve_eq known, fetchField_root strategy located, unexplained]
    rfl
  page explanation explained paginated := by
    rw [resolve_eq known, fetchField_root strategy located, explained]
    simp only [FieldResolver.queryOf, paginated, if_true]
    exact ⟨_, rfl, rfl, rfl, rfl⟩
  list explanation explained flat replies := by
    rw [resolve_eq known, fetchField_root strategy located, explained, Fetch.queries_map]
    exact queries_queryOf _ location flat explanation replies

/-- A count is of the documents that the select beside it lists: of the same filters, in what
explains client input, and in every page that a field comes to. -/
theorem total_counts_listed :
    (∀ (catalog : Catalog) (typename : String) (columns : List String) (filters : List Filter)
        (keys : List SortKey) (select : Statement),
      catalog.select typename columns filters keys = .ok select →
      ∃ count, catalog.count typename filters = .ok count ∧
        catalog.Describes typename columns filters keys ⟨select, count⟩) ∧
    (∀ (catalog : Catalog) (typename : String) (columns : List String) (filter sort : Value)
        (explanation : Explanation),
      catalog.explain typename columns filter sort = .ok explanation →
      ∃ filters keys, Filter.ofInput filter = .ok filters ∧ SortKey.ofInput sort = .ok keys ∧
        catalog.Describes typename columns filters keys explanation) ∧
    ∀ (scope : Scope) (resolver : FieldResolver) (source : Record) (arguments : Arguments)
        (info : FieldInfo),
      scope.graph.resolver? info.parentType info.fieldname = some resolver →
      (∀ page, (scope.resolve source arguments info).Visits (.done (.ok (.page page))) →
        scope.CountsListed resolver source arguments info.selection page) ∧
      ∀ location, resolver.strategy = .root → resolver.location = .ok location →
        scope.SelectsExplained resolver source arguments info location
          (scope.graph.catalog.explain resolver.field.returnTypename
            (resolver.queriedColumns scope.graph.catalog info.selection)
            arguments.filter arguments.sort) := by
  refine ⟨?_, ?_, ?_⟩
  · intro catalog typename columns filters keys select selected
    rw [Catalog.select_eq_map] at selected
    obtain ⟨explanation, explained, rfl⟩ := map_eq_ok.mp selected
    exact ⟨explanation.count, Catalog.count_of_explanation explained,
      Catalog.describes_of_explanation explained⟩
  · intro catalog typename columns filter sort explanation explained
    rw [Catalog.explain_eq] at explained
    obtain ⟨filters, accepted, explained⟩ := bind_eq_ok.mp explained
    obtain ⟨keys, ordered, explained⟩ := bind_eq_ok.mp explained
    exact ⟨filters, keys, accepted, ordered, Catalog.describes_of_explanation explained⟩
  · intro scope resolver source arguments info known
    exact ⟨fun page visits => countsListed_of_visits known visits,
      fun location strategy located => selectsExplained known strategy located⟩

end

namespace Archive

open Schema.Archive

def scope : Scope := ⟨.ofCatalog (.ofSchema schema) {}, ⟨"req", .null⟩⟩

def resolver : FieldResolver := ⟨"Library", listing docs, .root⟩

def info : FieldInfo := ⟨"Library", "docs", .empty⟩

def search : Value := .object [("id_eq", .string "7")]

def explanation : Explanation where
  select := ⟨"SELECT c.id FROM c WHERE c.id = @p1 ORDER BY c.id", [⟨"@p1", .string "7"⟩]⟩
  count := ⟨"SELECT VALUE COUNT(1) FROM c WHERE c.id = @p1", [⟨"@p1", .string "7"⟩]⟩

theorem explained : scope.graph.catalog.explain "Doc" [] search .null = .ok explanation := by
  let filters : List Filter := [.onKey "id" ⟨.equal, false⟩ (.string "7")]
  have read : Filter.ofInput search = .ok filters := rfl
  have selected : scope.graph.catalog.select "Doc" [] filters [] = .ok explanation.select := by
    decide
  have counted : scope.graph.catalog.count "Doc" filters = .ok explanation.count := by decide
  exact bind_eq_ok.mpr ⟨filters, read, bind_eq_ok.mpr ⟨[], rfl,
    bind_eq_ok.mpr ⟨_, selected, bind_eq_ok.mpr ⟨_, counted, rfl⟩⟩⟩⟩

/-- The page of the documents that a search finds, with the queries that explain the search. -/
theorem total_counts_listed_docs : Schema.compile none decls = .ok schema ∧
    ∃ page, scope.resolve (.ofValue .null) { filter := search } info = .done (.ok (.page page)) ∧
      page.windowQuery.statement = explanation.select ∧
      page.countQuery.statement = explanation.count ∧
      scope.CountsListed resolver (.ofValue .null) { filter := search } info.selection page := by
  have known : scope.graph.resolver? info.parentType info.fieldname = some resolver := by decide
  obtain ⟨opens, asks⟩ :=
    total_counts_listed.2.2 scope resolver (.ofValue .null) { filter := search } info known
  obtain ⟨page, resolves, _, window, count⟩ :=
    (asks ⟨"live", "Docs"⟩ rfl rfl).page explanation explained rfl
  exact ⟨compiled, page, resolves, window, count, opens page (resolves ▸ .here)⟩

end Archive

end Scope

end DocGraph
