import DocGraph.Proofs.Fetch.Company
import DocGraph.Proofs.Resolve.Built
import DocGraph.Proofs.Schema.Compiled
import DocGraph.Proofs.Schema.Reordering

namespace DocGraph

open Json

inductive Resolved.AtMostOne : Resolved → Prop
  | null : AtMostOne .null
  | record (record : Record) : AtMostOne (.record record)

inductive Resolved.IsPage : Resolved → Prop
  | page (page : Page) : IsPage (.page page)

namespace FieldResolver

variable {resolver : FieldResolver} {graph : Graph} {filters : List Filter} {keys : List SortKey}
  {arguments : Arguments} {selection : Selection} {query : RelatedQuery}

theorem relatedQuery_flat (flat : resolver.field.isPaginated = false)
    (related : resolver.relatedQuery graph filters keys arguments selection = .ok query) :
    ∃ location select, resolver.location = .ok location ∧
      graph.catalog.select resolver.field.returnTypename
        (graph.catalog.selectedColumns resolver.field.returnTypename (some selection))
        filters keys = .ok select ∧
      query = if resolver.field.returnMany then .list location select
        else .single location select := by
  rw [relatedQuery] at related
  obtain ⟨location, located, related⟩ := bind_eq_ok.mp related
  simp only [flat] at related
  obtain ⟨select, selected, related⟩ := bind_eq_ok.mp related
  exact ⟨location, select, located, mapError_eq_ok.mp selected, (pure_eq_ok.mp related).symm⟩

theorem relatedQuery_paginated (paginated : resolver.field.isPaginated = true)
    (related : resolver.relatedQuery graph filters keys arguments selection = .ok query) :
    ∃ request, query = .page request := by
  rw [relatedQuery] at related
  obtain ⟨location, _, related⟩ := bind_eq_ok.mp related
  simp only [paginated, if_true] at related
  obtain ⟨select, _, related⟩ := bind_eq_ok.mp related
  obtain ⟨count, _, related⟩ := bind_eq_ok.mp related
  exact ⟨_, (pure_eq_ok.mp related).symm⟩

theorem planOurs_paginated {batchSize : Nat} {column : String} {value : Value} {plan : Plan}
    (paginated : resolver.field.isPaginated = true)
    (planned : resolver.planOurs batchSize arguments column value = .ok plan) :
    ∃ filters keys, plan = .query filters keys := by
  rw [planOurs] at planned
  obtain ⟨ids, _, planned⟩ := bind_eq_ok.mp planned
  obtain ⟨⟨filters, keys⟩, _, planned⟩ := bind_eq_ok.mp planned
  simp only [paginated, Bool.not_true, Bool.and_false, Bool.false_and, Bool.false_eq_true,
    if_false] at planned
  exact ⟨_, _, (pure_eq_ok.mp planned).symm⟩

theorem atMostOne_nothing (one : resolver.field.returnMany = false) :
    resolver.nothing.AtMostOne := by
  simp only [nothing, one]
  exact .null

theorem atMostOne_of_shape {records : List Record} {resolved : Resolved}
    (one : resolver.field.returnMany = false) (shaped : resolver.shape records = .ok resolved) :
    resolved.AtMostOne := by
  simp only [shape, one] at shaped
  split at shaped
  · contradiction
  · split at shaped
    · cases shaped
      exact .null
    · cases shaped
      exact .record _
    · cases shaped

end FieldResolver

namespace Scope

section

variable (scope : Scope) (resolver : FieldResolver)

/-- Where a relation to one record, answered without pages, may stand. -/
inductive OneStage : FieldFetch → Prop
  | load (context : RequestContext) (request : LoadRequest) (next : LoadReply → FieldFetch) :
      OneStage (.load context request next)
  | query {asked : StoreQuery} {next : Except StoreError StorePage → FieldFetch}
      (location : Location) (select : Statement)
      (same : .query asked next = scope.queryRelated resolver (.single location select)) :
      OneStage (.query asked next)
  | failed (fault : ResolveFault) : OneStage (.done (.error fault))
  | answered {resolved : Resolved} (one : resolved.AtMostOne) : OneStage (.done (.ok resolved))

/-- Where a relation that is answered in pages may stand. -/
inductive PageStage : FieldFetch → Prop
  | load (context : RequestContext) (request : LoadRequest) (next : LoadReply → FieldFetch) :
      PageStage (.load context request next)
  | failed (fault : ResolveFault) : PageStage (.done (.error fault))
  | answered {resolved : Resolved} (page : resolved.IsPage) : PageStage (.done (.ok resolved))

end

section

variable {scope : Scope} {resolver : FieldResolver} {source : Record} {arguments : Arguments}
  {selection : Selection}

theorem always_readColumn {holds : FieldFetch → Prop}
    (load : ∀ context request next, holds (.load context request next))
    (failed : ∀ fault, holds (.done (.error fault))) (column : String)
    {next : Value → FieldFetch} (onward : ∀ value, (next value).Always holds) :
    (scope.readColumn source column next).Always holds := by
  unfold readColumn
  split
  · exact onward _
  · exact onward _
  · refine .load (load _ _ _) fun reply => ?_
    cases reply with
    | error fault => exact .done (failed _)
    | ok rows => exact onward _

theorem always_fetchField {holds : FieldFetch → Prop}
    (load : ∀ context request next, holds (.load context request next))
    (failed : ∀ fault, holds (.done (.error fault)))
    (keyed : resolver.strategy = .ours ∨ resolver.strategy = .theirs)
    (ours : ∀ column value plan,
      resolver.planOurs scope.graph.settings.loader.batchSize arguments column value = .ok plan →
      (scope.execute resolver arguments selection plan).Always holds)
    (query : ∀ filters keys,
      (scope.execute resolver arguments selection (.query filters keys)).Always holds) :
    (scope.fetchField resolver source arguments selection).Always holds := by
  rcases keyed with strategy | strategy
  · simp only [fetchField, strategy]
    cases resolver.field.ours with
    | none => exact .done (failed _)
    | some column =>
        refine always_readColumn load failed column fun value => ?_
        cases planned : resolver.planOurs scope.graph.settings.loader.batchSize arguments column
            value with
        | error fault => exact .done (failed _)
        | ok plan => exact ours column value plan planned
  · simp only [fetchField, strategy]
    cases planned : resolver.planTheirs scope.graph.catalog source arguments with
    | error fault => exact .done (failed _)
    | ok plan =>
        obtain ⟨_, _, _, _, _, _, _, rfl⟩ := resolver.planTheirs_spec planned
        exact query _ _

theorem oneStage_shape {records : List Record} (one : resolver.field.returnMany = false) :
    (Fetch.done (resolver.shape records)).Always (scope.OneStage resolver) := by
  apply Fetch.Always.done
  cases shaped : resolver.shape records with
  | error fault => exact .failed fault
  | ok resolved => exact .answered (FieldResolver.atMostOne_of_shape one shaped)

theorem oneStage_loadRelated (one : resolver.field.returnMany = false) (ids : List String) :
    (scope.loadRelated resolver ids selection).Always (scope.OneStage resolver) := by
  unfold loadRelated
  split
  · exact .done (.failed _)
  · refine .load (.load _ _ _) fun reply => ?_
    cases reply with
    | error fault => exact .done (.failed _)
    | ok rows => exact oneStage_shape one

theorem oneStage_query (one : resolver.field.returnMany = false)
    (flat : resolver.field.isPaginated = false) (filters : List Filter) (keys : List SortKey) :
    (scope.execute resolver arguments selection (.query filters keys)).Always
      (scope.OneStage resolver) := by
  simp only [execute]
  cases related : resolver.relatedQuery scope.graph filters keys arguments selection with
  | error fault => exact .done (.failed fault)
  | ok query =>
      obtain ⟨location, select, _, _, rfl⟩ := FieldResolver.relatedQuery_flat flat related
      simp only [one, Bool.false_eq_true, if_false]
      refine .query (.query location select rfl) fun reply => ?_
      cases reply with
      | error error => exact .done (.failed _)
      | ok page => exact oneStage_shape one

theorem always_oneStage (one : resolver.field.returnMany = false)
    (flat : resolver.field.isPaginated = false)
    (keyed : resolver.strategy = .ours ∨ resolver.strategy = .theirs) :
    (scope.fetchField resolver source arguments selection).Always (scope.OneStage resolver) := by
  refine always_fetchField .load .failed keyed (fun column value plan planned => ?_)
    (oneStage_query one flat)
  rcases resolver.planOurs_spec planned with rfl | ⟨ids, rfl⟩ | ⟨_, _, _, _, _, rfl⟩
  · exact .done (.answered (FieldResolver.atMostOne_nothing one))
  · exact oneStage_loadRelated one ids
  · exact oneStage_query one flat _ _

theorem pageStage_query (paginated : resolver.field.isPaginated = true) (filters : List Filter)
    (keys : List SortKey) :
    (scope.execute resolver arguments selection (.query filters keys)).Always PageStage := by
  simp only [execute]
  cases related : resolver.relatedQuery scope.graph filters keys arguments selection with
  | error fault => exact .done (.failed fault)
  | ok query =>
      obtain ⟨request, rfl⟩ := FieldResolver.relatedQuery_paginated paginated related
      exact .done (.answered (.page _))

theorem always_pageStage (paginated : resolver.field.isPaginated = true)
    (keyed : resolver.strategy = .ours ∨ resolver.strategy = .theirs) :
    (scope.fetchField resolver source arguments selection).Always PageStage := by
  refine always_fetchField .load .failed keyed (fun column value plan planned => ?_)
    (pageStage_query paginated)
  obtain ⟨filters, keys, rfl⟩ := FieldResolver.planOurs_paginated paginated planned
  exact pageStage_query paginated filters keys

theorem visits_of_resolve {info : FieldInfo} {resolved : Resolved}
    (known : scope.graph.resolver? info.parentType info.fieldname = some resolver)
    (visits : (scope.resolve source arguments info).Visits (.done (.ok resolved))) :
    (scope.fetchField resolver source arguments info.selection).Visits
      (.done (.ok resolved)) := by
  rw [resolve, known] at visits
  obtain ⟨before, visited, same⟩ := visits.of_map
  cases before with
  | done result =>
      cases result with
      | error fault => cases same
      | ok value =>
          cases same
          exact visited
  | query => cases same
  | drain => cases same
  | load => cases same

/-- In every run, a relation to one record is answered with at most one record, or with a page
where its declaration asks for pages. -/
theorem one_record_shape {decls : List TypeDecl} {info : FieldInfo} {store : Store}
    {settings : LoaderSettings} {patience place : Nat} {session after : Session}
    {jobs : List (Job (Except ResolveError Resolved))} {job : Job (Except ResolveError Resolved)}
    {results : List (Except ResolveError Resolved)} {resolved : Resolved}
    (compiled : scope.graph.CompiledFrom decls)
    (known : scope.graph.resolver? info.parentType info.fieldname = some resolver)
    (one : resolver.field.relation = .oneOurs ∨ resolver.field.relation = .oneTheirs)
    (resolves : job.fetch = scope.resolve source arguments info) (here : jobs[place]? = some job)
    (ran : session.run store settings patience jobs = (.finished results, after))
    (succeeds : results[place]? = some (.ok resolved)) :
    ∃ decl, Schema.DeclaredBy decls resolver.typename decl ∧ decl.Becomes resolver.field ∧
      (¬ decl.AsksForPages → resolved.AtMostOne) ∧ (decl.AsksForPages → resolved.IsPage) := by
  obtain ⟨decl, declared, stems⟩ := compiled.stems known
  obtain ⟨keyed, single, paginated⟩ := stems.one one
  have visits : job.fetch.Visits (.done (.ok resolved)) := by
    obtain ⟨inJobs, isJob⟩ := List.getElem?_eq_some_iff.mp here
    obtain ⟨inResults, isResult⟩ := List.getElem?_eq_some_iff.mp succeeds
    have visited := (Session.visits_of_run ran).get inJobs inResults
    simpa only [List.get_eq_getElem, isJob, isResult] using visited
  have came := visits_of_resolve known (resolves ▸ visits)
  refine ⟨decl, declared, stems.becomes, fun flat => ?_, fun asks => ?_⟩
  · have plain : resolver.field.isPaginated = false := by simpa [flat] using paginated
    cases always_oneStage single plain keyed _ came with
    | answered one => exact one
  · cases always_pageStage (paginated.mpr asks) keyed _ came with
    | answered page => exact page

end

namespace Owned

/-- A thing has one owner, who keeps the thing's key. -/
def decls (pagination : Option String) : List TypeDecl := [
  (TypeDecl.named "Thing").withField
    { FieldDecl.named "owner" "Owner" with theirs := some "thingId", pagination },
  ((TypeDecl.named "Owner").located "db" "Owners").withField (.named "thingId" "String")]

def stored (fieldname returnTypename : String) (relation : Relation) : Field where
  fieldname
  returnTypename
  returnMany := false
  placement := .unknown
  ours := none
  theirs := none
  filterOps := none
  filterAlias := none
  sortable := none
  sortAlias := none
  pagination := some false
  relation

def owner (paginated : Bool) : Field :=
  { stored "owner" "Owner" .oneTheirs with
    placement := .full "db" "Owners"
    theirs := some "thingId"
    pagination := some paginated }

def schema (paginated : Bool) : Schema := ⟨[
  ⟨"Owner", .full "db" "Owners", false, [stored "thingId" "String" .embedded]⟩,
  ⟨"Thing", .unknown, false, [owner paginated]⟩]⟩

def graph (paginated : Bool) : Graph := .ofCatalog (.ofSchema (schema paginated)) {}

theorem compiled_flat : (graph false).CompiledFrom (decls none) := by
  have settled : Schema.compile none (decls none) = .ok (schema false) := by
    simp only [Schema.compile, Schema.build, Schema.ofDecls, Schema.compileTypes, TypeDecl.compile,
      mergeSort_eq_insertionSort]
    rfl
  exact Graph.compiledFrom_ofSchema settled

theorem compiled_paginated : (graph true).CompiledFrom (decls (some "on")) := by
  have settled : Schema.compile none (decls (some "on")) = .ok (schema true) := by
    simp only [Schema.compile, Schema.build, Schema.ofDecls, Schema.compileTypes, TypeDecl.compile,
      mergeSort_eq_insertionSort]
    decide +kernel
  exact Graph.compiledFrom_ofSchema settled

def scope (paginated : Bool) : Scope := ⟨graph paginated, ⟨"req", .null⟩⟩

def thing : Record := .ofValue (.object [("id", .string "1")])

def info : FieldInfo := ⟨"Thing", "owner", .empty⟩

def resolver (paginated : Bool) : FieldResolver := ⟨"Thing", owner paginated, .theirs⟩

def noOwners : Store := fun _ _ => .page ⟨[], none⟩

def jobs (paginated : Bool) : List (Job (Except ResolveError Resolved)) :=
  [⟨0, (scope paginated).resolve thing {} info⟩]

def page : Page where
  context := ⟨"req", .null⟩
  request := {
    typename := "Owner"
    location := ⟨"db", "Owners"⟩
    select := ⟨"SELECT c.id FROM c WHERE c.thingId = @p1 ORDER BY c.id", [⟨"@p1", .string "1"⟩]⟩
    count := ⟨"SELECT VALUE COUNT(1) FROM c WHERE c.thingId = @p1", [⟨"@p1", .string "1"⟩]⟩
    cursor := none
    limit := some 50 }

theorem one_record_shape_owner : ∃ after,
    (Session.new {}).run noOwners {} 2 (jobs false) = (.finished [.ok .null], after) ∧
    ∃ decl, Schema.DeclaredBy (decls none) "Thing" decl ∧ decl.Becomes (owner false) ∧
      (¬ decl.AsksForPages → Resolved.null.AtMostOne) ∧
      (decl.AsksForPages → Resolved.null.IsPage) := by
  have ran : (Session.new {}).run noOwners {} 2 (jobs false) =
      (.finished [.ok .null], ((Session.new {}).run noOwners {} 2 (jobs false)).2) := rfl
  have answered : [(Except.ok .null : Except ResolveError Resolved)][0]? = some (.ok .null) := rfl
  exact ⟨_, ran, @one_record_shape (scope false) (resolver false) thing {} (decls none) info
    noOwners {} 2 0 _ _ (jobs false) _ _ _ compiled_flat (by decide) (.inr rfl) rfl rfl ran
    answered⟩

/-- Of a field that is declared with pages, the owner comes as a page. -/
theorem owner_page : ∃ after,
    (graph true).CompiledFrom (decls (some "on")) ∧
    (graph true).resolver? "Thing" "owner" = some (resolver true) ∧
    (resolver true).field.relation = .oneTheirs ∧
    (Session.new {}).run noOwners {} 2 (jobs true) = (.finished [.ok (.page page)], after) ∧
    ¬ (Resolved.page page).AtMostOne :=
  ⟨_, compiled_paginated, by decide, rfl, rfl, nofun⟩

end Owned

end Scope

end DocGraph
