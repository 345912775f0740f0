import DocGraph.Proofs.Fetch.Replies
import DocGraph.Proofs.Query.Matching
import DocGraph.Resolve.Basic

namespace DocGraph

open Json

variable {replies : Replies} {statement : Statement}

def Resolved.statements : Resolved → List Statement
  | .page opened => [opened.request.select, opened.request.count]
  | _ => []

def RelatedQuery.statements : RelatedQuery → List Statement
  | .page request => [request.select, request.count]
  | .list _ select | .single _ select => [select]

/-- The statements that a field builds: those of its queries and of the page that it
hands out. -/
def Fetch.statements {ε : Type} (replies : Replies) (fetch : Fetch (Except ε Resolved)) :
    List Statement :=
  (fetch.queries replies).map (·.statement) ++
    match fetch.result replies with
    | .ok resolved => resolved.statements
    | .error _ => []

namespace Fetch

variable {ε : Type}

@[simp] theorem statements_ok (resolved : Resolved) :
    (done (.ok resolved) : Fetch (Except ε Resolved)).statements replies = resolved.statements :=
  rfl

@[simp] theorem statements_error (fault : ε) :
    (done (.error fault) : Fetch (Except ε Resolved)).statements replies = [] :=
  rfl

@[simp] theorem statements_query (asked : StoreQuery)
    (next : Except StoreError StorePage → Fetch (Except ε Resolved)) :
    (query asked next).statements replies =
      asked.statement :: (next (replies.page asked)).statements replies :=
  rfl

@[simp] theorem statements_drain (asked : StoreQuery)
    (next : Except StoreError (List Value) → Fetch (Except ε Resolved)) :
    (drain asked next).statements replies =
      asked.statement :: (next (replies.rows asked)).statements replies :=
  rfl

@[simp] theorem statements_load (context : RequestContext) (request : LoadRequest)
    (next : LoadReply → Fetch (Except ε Resolved)) :
    (load context request next).statements replies =
      (next (replies.load context request)).statements replies :=
  rfl

theorem statements_mapError {δ : Type} (change : ε → δ) (fetch : Fetch (Except ε Resolved)) :
    (fetch.map (·.mapError change)).statements replies = fetch.statements replies := by
  rw [statements, statements, queries_map, result_map]
  cases fetch.result replies <;> rfl

end Fetch

namespace FieldResolver

variable (resolver : FieldResolver) {graph : Graph} {filters : List Filter} {keys : List SortKey}
  {arguments : Arguments} {selection : Selection}

theorem builds_of_relatedQuery {query : RelatedQuery}
    (related : resolver.relatedQuery graph filters keys arguments selection = .ok query)
    (member : statement ∈ query.statements) :
    graph.catalog.Builds resolver.field.returnTypename filters statement := by
  rw [relatedQuery] at related
  obtain ⟨location, _, related⟩ := bind_eq_ok.mp related
  split at related
  · obtain ⟨select, selected, related⟩ := bind_eq_ok.mp related
    obtain ⟨count, counted, related⟩ := bind_eq_ok.mp related
    obtain rfl := pure_eq_ok.mp related
    have either : statement = select ∨ statement = count := by
      simpa [RelatedQuery.statements] using member
    rcases either with rfl | rfl
    · exact .select (mapError_eq_ok.mp selected)
    · exact .count (mapError_eq_ok.mp counted)
  · obtain ⟨select, selected, related⟩ := bind_eq_ok.mp related
    obtain rfl := pure_eq_ok.mp related
    have same : statement = select := by
      split at member <;> simpa [RelatedQuery.statements] using member
    rw [same]
    exact .select (mapError_eq_ok.mp selected)

theorem clientQuery_eq_ok {filters : List Filter} {keys : List SortKey}
    (parsed : clientQuery arguments = .ok (filters, keys)) :
    Filter.ofInput arguments.filter = .ok filters := by
  rw [clientQuery] at parsed
  obtain ⟨_, accepted, parsed⟩ := bind_eq_ok.mp parsed
  obtain ⟨_, _, parsed⟩ := bind_eq_ok.mp parsed
  cases parsed
  exact mapError_eq_ok.mp accepted

theorem statements_nothing (resolver : FieldResolver) : resolver.nothing.statements = [] := by
  rw [nothing]
  split <;> rfl

/-- A plan for the keys of the parent answers with nothing, loads, or queries by id. -/
theorem planOurs_spec {batchSize : Nat} {column : String} {value : Value} {plan : Plan}
    (planned : resolver.planOurs batchSize arguments column value = .ok plan) :
    plan = .answer resolver.nothing ∨ (∃ ids, plan = .load ids) ∨
      ∃ ids filters keys, keysOf column value = .ok ids ∧
        Filter.ofInput arguments.filter = .ok filters ∧
        plan = .query (resolver.idCondition ids :: filters) keys := by
  rw [planOurs] at planned
  obtain ⟨ids, read, planned⟩ := bind_eq_ok.mp planned
  obtain ⟨⟨filters, keys⟩, parsed, planned⟩ := bind_eq_ok.mp planned
  have accepted := clientQuery_eq_ok parsed
  simp only at planned
  split at planned
  · split at planned
    · exact .inl (pure_eq_ok.mp planned).symm
    · exact .inr (.inl ⟨ids, (pure_eq_ok.mp planned).symm⟩)
  · split at planned
    · exact .inl (pure_eq_ok.mp planned).symm
    · exact .inr (.inr ⟨ids, filters, keys, read, accepted, (pure_eq_ok.mp planned).symm⟩)

theorem planTheirs_spec {catalog : Catalog} {source : Record} {plan : Plan}
    (planned : resolver.planTheirs catalog source arguments = .ok plan) :
    ∃ column id filters keys, resolver.field.theirs = some column ∧ source.id? = some id ∧
      Filter.ofInput arguments.filter = .ok filters ∧
      plan = .query (resolver.reverseCondition catalog column id :: filters) keys := by
  rw [planTheirs] at planned
  split at planned
  · contradiction
  · contradiction
  · next column id kept parent =>
      obtain ⟨⟨filters, keys⟩, parsed, planned⟩ := bind_eq_ok.mp planned
      exact ⟨column, id, filters, keys, kept, parent, clientQuery_eq_ok parsed,
        (pure_eq_ok.mp planned).symm⟩

end FieldResolver

namespace Scope

variable (scope : Scope)

@[simp] theorem relatedCall_statement (location : Location) (statement : Statement)
    (limit : Option Nat) : (scope.relatedCall location statement limit).statement = statement :=
  rfl

/-- What a column of a parent holds, if it can be read. -/
def heldValue? (replies : Replies) (source : Record) (column : String) : Option Value :=
  match source.get? column, source.origin with
  | some value, _ => some value
  | none, none => some .null
  | none, some origin =>
    match replies.load scope.context ⟨origin.typename, origin.location, [column], [origin.id]⟩ with
    | .ok rows => some ((rows.head?.join.bind (·.get? column)).getD .null)
    | .error _ => none

variable {scope} {source : Record} {arguments : Arguments} {selection : Selection}
  {resolver : FieldResolver}

theorem mem_statements_readColumn {column : String} {next : Value → FieldFetch}
    (built : statement ∈ (scope.readColumn source column next).statements replies) :
    ∃ held, scope.heldValue? replies source column = some held ∧
      statement ∈ (next held).statements replies := by
  cases loaded : source.get? column with
  | some value =>
      simp only [readColumn, loaded] at built
      exact ⟨value, by simp only [heldValue?, loaded], built⟩
  | none =>
      cases came : source.origin with
      | none =>
          simp only [readColumn, loaded, came] at built
          exact ⟨.null, by simp only [heldValue?, loaded, came], built⟩
      | some origin =>
          simp only [readColumn, loaded, came, Fetch.loadOne, Fetch.bind,
            Fetch.statements_load] at built
          simp only [heldValue?, loaded, came]
          cases replied : replies.load scope.context
              ⟨origin.typename, origin.location, [column], [origin.id]⟩ with
          | error fault => simp [replied, Except.map] at built
          | ok rows =>
              rw [replied] at built
              exact ⟨_, rfl, built⟩

theorem statements_shape (records : List Record) :
    (Fetch.done (resolver.shape records)).statements replies = [] := by
  unfold FieldResolver.shape
  split
  · rfl
  · split <;> rfl

theorem statements_loadRelated (ids : List String) :
    (scope.loadRelated resolver ids selection).statements replies = [] := by
  rw [loadRelated]
  cases resolver.location with
  | error fault => rfl
  | ok location =>
      simp only [Fetch.loadAll, Fetch.bind, Fetch.statements_load]
      cases replies.load scope.context
          (resolver.loadRequest scope.graph.catalog location ids selection) with
      | error fault => rfl
      | ok rows => exact statements_shape _

theorem statements_queryRelated (query : RelatedQuery) :
    (scope.queryRelated resolver query).statements replies = query.statements := by
  cases query with
  | page request => rfl
  | list location select =>
      simp only [queryRelated, Fetch.statements_drain, relatedCall_statement,
        RelatedQuery.statements]
      cases replies.rows (scope.relatedCall location select none) <;> rfl
  | single location select =>
      simp only [queryRelated, Fetch.statements_query, relatedCall_statement,
        RelatedQuery.statements]
      cases replies.page (scope.relatedCall location select (some 2)) with
      | error fault => rfl
      | ok page => rw [statements_shape]

theorem builds_of_query {filters : List Filter} {keys : List SortKey}
    (built : statement ∈
      (scope.execute resolver arguments selection (.query filters keys)).statements replies) :
    scope.graph.catalog.Builds resolver.field.returnTypename filters statement := by
  simp only [execute] at built
  cases related : resolver.relatedQuery scope.graph filters keys arguments selection with
  | error fault => simp [related] at built
  | ok query =>
      rw [related, statements_queryRelated] at built
      exact resolver.builds_of_relatedQuery related built

theorem statements_resolve {info : FieldInfo}
    (known : scope.graph.resolver? info.parentType info.fieldname = some resolver) :
    (scope.resolve source arguments info).statements replies =
      (scope.fetchField resolver source arguments info.selection).statements replies := by
  rw [resolve, known]
  exact Fetch.statements_mapError _ _

theorem ours_of_mem_statements (strategy : resolver.strategy = .ours)
    (built : statement ∈
      (scope.fetchField resolver source arguments selection).statements replies) :
    ∃ column held ids filters, resolver.field.ours = some column ∧
      scope.heldValue? replies source column = some held ∧ keysOf column held = .ok ids ∧
      Filter.ofInput arguments.filter = .ok filters ∧
      scope.graph.catalog.Builds resolver.field.returnTypename
        (resolver.idCondition ids :: filters) statement := by
  simp only [fetchField, strategy] at built
  cases kept : resolver.field.ours with
  | none => simp [kept] at built
  | some column =>
      rw [kept] at built
      obtain ⟨held, read, built⟩ := mem_statements_readColumn built
      cases planned : resolver.planOurs scope.graph.settings.loader.batchSize arguments column
          held with
      | error fault => simp [planned, executePlanned] at built
      | ok plan =>
          rw [planned, executePlanned] at built
          rcases resolver.planOurs_spec planned with rfl | ⟨ids, rfl⟩ |
            ⟨ids, filters, keys, listed, accepted, rfl⟩
          · simp [execute, FieldResolver.statements_nothing] at built
          · simp [execute, statements_loadRelated] at built
          · exact ⟨column, held, ids, filters, rfl, read, listed, accepted, builds_of_query built⟩

theorem theirs_of_mem_statements (strategy : resolver.strategy = .theirs)
    (built : statement ∈
      (scope.fetchField resolver source arguments selection).statements replies) :
    ∃ column id filters, resolver.field.theirs = some column ∧ source.id? = some id ∧
      Filter.ofInput arguments.filter = .ok filters ∧
      scope.graph.catalog.Builds resolver.field.returnTypename
        (resolver.reverseCondition scope.graph.catalog column id :: filters) statement := by
  simp only [fetchField, strategy] at built
  cases planned : resolver.planTheirs scope.graph.catalog source arguments with
  | error fault => simp [planned, executePlanned] at built
  | ok plan =>
      rw [planned, executePlanned] at built
      obtain ⟨column, id, filters, keys, kept, parent, accepted, rfl⟩ :=
        resolver.planTheirs_spec planned
      exact ⟨column, id, filters, kept, parent, accepted, builds_of_query built⟩

end Scope

end DocGraph
