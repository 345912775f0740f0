import DocGraph.Proofs.Resolve.Cardinality
import DocGraph.Proofs.Store.Chains

/-!
# Paging through a relation

A client resolves a paginated field without a cursor and then again with the next cursor of
each page. Every time the field asks for the same page but for the cursor, so that the pages
taken together hold the complete answer to one select.
-/

namespace DocGraph

open Json

theorem PagingSettings.effectiveLimit_bounds (settings : PagingSettings) (requested : Option Nat) :
    1 ≤ settings.effectiveLimit requested ∧
      settings.effectiveLimit requested ≤ max 1 settings.maxLimit := by
  unfold effectiveLimit
  omega

/-- A request for pages of a select, each of at least one row and no more than allowed. -/
structure PageRequest.Proper (request : PageRequest) (settings : PagingSettings) : Prop where
  select : request.select.IsSelect
  limit : ∃ limit, request.limit = some limit ∧ 1 ≤ limit ∧ limit ≤ max 1 settings.maxLimit

namespace FieldResolver

/-- The cursor of the arguments goes into the page that is asked for and nowhere else. -/
theorem relatedQuery_cursor {resolver : FieldResolver}
    (paginated : resolver.field.isPaginated = true) (graph : Graph) (filters : List Filter)
    (keys : List SortKey) (arguments : Arguments) (selection : Selection) :
    ∃ outcome : Except ResolveFault PageRequest,
      (∀ request, outcome = .ok request → request.Proper graph.settings.paging) ∧
      ∀ cursor, resolver.relatedQuery graph filters keys { arguments with cursor } selection =
        outcome.map fun request => .page { request with cursor } := by
  simp only [relatedQuery, paginated, if_true]
  cases resolver.location with
  | error fault => exact ⟨.error fault, fun _ same => absurd same error_ne_ok, fun _ => rfl⟩
  | ok location =>
      cases selected : graph.catalog.select resolver.field.returnTypename
          (graph.catalog.selectedColumns resolver.field.returnTypename
            (selection.child? "items")) filters keys with
      | error error =>
          exact ⟨.error (.query error), fun _ same => absurd same error_ne_ok, fun _ => rfl⟩
      | ok select =>
          cases graph.catalog.count resolver.field.returnTypename filters with
          | error error =>
              exact ⟨.error (.query error), fun _ same => absurd same error_ne_ok, fun _ => rfl⟩
          | ok count =>
              refine ⟨.ok ⟨resolver.field.returnTypename, location, select, count, none,
                some (graph.settings.paging.effectiveLimit arguments.limit)⟩, ?_, fun _ => rfl⟩
              rintro request same
              cases same
              exact ⟨Catalog.isSelect_select selected, _, rfl,
                graph.settings.paging.effectiveLimit_bounds arguments.limit⟩

theorem planRoot_spec {arguments : Arguments} {plan : Plan}
    (planned : planRoot arguments = .ok plan) : ∃ filters keys, plan = .query filters keys := by
  obtain ⟨⟨filters, keys⟩, _, planned⟩ := bind_eq_ok.mp planned
  exact ⟨filters, keys, (pure_eq_ok.mp planned).symm⟩

theorem not_isPage_embeddedAnswer {resolver : FieldResolver} (catalog : Catalog) (value : Value) :
    ¬ (resolver.embeddedAnswer catalog value).IsPage := by
  intro page
  cases value with
  | array items =>
      simp only [embeddedAnswer] at page
      split at page <;> cases page
  | object members =>
      simp only [embeddedAnswer] at page
      split at page <;> cases page
  | _ => cases page

theorem not_isPage_columnAnswer (value : Value) : ¬ (columnAnswer value).IsPage := by
  intro page
  cases value <;> cases page

end FieldResolver

namespace Scope

/-- A page that was not read yet. -/
def opened (scope : Scope) (request : PageRequest) : Resolved :=
  .page { context := scope.context, request }

theorem executePlanned_cursor (scope : Scope) {resolver : FieldResolver}
    (paginated : resolver.field.isPaginated = true) (arguments : Arguments) (selection : Selection)
    (planned : Except ResolveFault Plan)
    (queries : ∀ plan, planned = .ok plan → ∃ filters keys, plan = .query filters keys) :
    ∃ outcome : Except ResolveFault PageRequest,
      (∀ request, outcome = .ok request → request.Proper scope.graph.settings.paging) ∧
      ∀ cursor, scope.executePlanned resolver { arguments with cursor } selection planned =
        .done (outcome.map fun request => scope.opened { request with cursor }) := by
  cases planned with
  | error fault => exact ⟨.error fault, fun _ same => absurd same error_ne_ok, fun _ => rfl⟩
  | ok plan =>
      obtain ⟨filters, keys, rfl⟩ := queries plan rfl
      obtain ⟨outcome, proper, related⟩ := FieldResolver.relatedQuery_cursor paginated
        scope.graph filters keys arguments selection
      refine ⟨outcome, proper, fun cursor => ?_⟩
      rw [executePlanned, execute, related]
      cases outcome <;> rfl

section

variable (scope : Scope) {store : Store} {resolver : FieldResolver}
  {answer : RequestContext → Location → Statement → List Value}

/-- What a column of a record holds is the same whenever it is read. -/
theorem readColumn_steady (lists : store.Lists answer) (batchSize : Nat) (source : Record)
    (column : String) :
    ∃ held : Except ResolveFault Value, ∀ (next : Value → FieldFetch) history, ∃ made,
      (scope.readColumn source column next).Reaches store batchSize history (history ++ made)
        (match held with
          | .ok value => next value
          | .error fault => .done (.error fault)) := by
  cases loaded : source.get? column with
  | some value =>
      refine ⟨.ok value, fun next history => ⟨[], ?_⟩⟩
      simp only [readColumn, loaded, List.append_nil]
      exact .here
  | none =>
      cases came : source.origin with
      | none =>
          refine ⟨.ok .null, fun next history => ⟨[], ?_⟩⟩
          simp only [readColumn, loaded, came, List.append_nil]
          exact .here
      | some origin =>
          let request : LoadRequest := ⟨origin.typename, origin.location, [column], [origin.id]⟩
          have asks : request.ids ≠ [] := List.cons_ne_nil _ _
          by_cases fits : request.distinctIds ≤ batchSize
          · let rows := answer scope.context request.location request.toBatch.statement
            have walks := lists scope.context request.location _ request.toBatch.isSelect_statement
            refine ⟨.ok (((Batch.rowsFor rows request.ids).head?.join.bind (·.get? column)).getD
              .null), fun next history => ?_⟩
            obtain ⟨made, drains⟩ := walks.drains (some request.toBatch.ids.size) history
            refine ⟨made, ?_⟩
            simp only [readColumn, loaded, came]
            exact .loaded asks fits drains .here
          · refine ⟨.error (.loader (.tooManyIds request.distinctIds batchSize)),
              fun next history => ⟨[], ?_⟩⟩
            simp only [readColumn, loaded, came, List.append_nil]
            exact .atOnce (.tooMany asks (Nat.lt_of_not_le fits)) .here

section

variable (source : Record) (arguments : Arguments) (selection : Selection)

/-- With every cursor and after whatever calls, the field comes to one request or to one
error. -/
structure SameRequest (store : Store) (resolver : FieldResolver)
    (outcome : Except ResolveFault PageRequest) : Prop where
  proper : ∀ request, outcome = .ok request → request.Proper scope.graph.settings.paging
  reaches : ∀ cursor history, ∃ made,
    (scope.fetchField resolver source { arguments with cursor } selection).Reaches store
      scope.graph.settings.loader.batchSize history (history ++ made)
      (.done (outcome.map fun request => scope.opened { request with cursor }))

theorem sameRequest_of_planned (paginated : resolver.field.isPaginated = true)
    (planned : Except ResolveFault Plan)
    (queries : ∀ plan, planned = .ok plan → ∃ filters keys, plan = .query filters keys)
    (reaches : ∀ cursor history, ∃ made,
      (scope.fetchField resolver source { arguments with cursor } selection).Reaches store
        scope.graph.settings.loader.batchSize history (history ++ made)
        (scope.executePlanned resolver { arguments with cursor } selection planned)) :
    ∃ outcome, scope.SameRequest source arguments selection store resolver outcome := by
  obtain ⟨outcome, proper, executed⟩ :=
    scope.executePlanned_cursor paginated arguments selection planned queries
  refine ⟨outcome, proper, fun cursor history => ?_⟩
  rw [← executed cursor]
  exact reaches cursor history

theorem exists_sameRequest (lists : store.Lists answer)
    (paginated : resolver.field.isPaginated = true)
    (related : resolver.strategy ≠ .embedded ∧ resolver.strategy ≠ .column) :
    ∃ outcome, scope.SameRequest source arguments selection store resolver outcome := by
  cases strategy : resolver.strategy with
  | embedded => exact absurd strategy related.1
  | column => exact absurd strategy related.2
  | root =>
      refine scope.sameRequest_of_planned source arguments selection paginated
        (FieldResolver.planRoot arguments) (fun _ => FieldResolver.planRoot_spec) ?_
      intro cursor history
      refine ⟨[], ?_⟩
      simp only [fetchField, strategy, List.append_nil]
      exact .here
  | theirs =>
      refine scope.sameRequest_of_planned source arguments selection paginated
        (resolver.planTheirs scope.graph.catalog source arguments) (fun plan planned => ?_) ?_
      · obtain ⟨_, _, _, _, _, _, _, same⟩ := resolver.planTheirs_spec planned
        exact ⟨_, _, same⟩
      · intro cursor history
        refine ⟨[], ?_⟩
        simp only [fetchField, strategy, List.append_nil]
        exact .here
  | ours =>
      cases keys : resolver.field.ours with
      | none =>
          refine ⟨.error (resolver.missingKey "ours"), fun _ same => absurd same error_ne_ok,
            fun cursor history => ⟨[], ?_⟩⟩
          simp only [fetchField, strategy, keys, List.append_nil]
          exact .here
      | some column =>
          obtain ⟨held, reads⟩ := scope.readColumn_steady lists
            scope.graph.settings.loader.batchSize source column
          cases held with
          | error fault =>
              refine ⟨.error fault, fun _ same => absurd same error_ne_ok, fun cursor history => ?_⟩
              simp only [fetchField, strategy, keys]
              exact reads _ history
          | ok value =>
              refine scope.sameRequest_of_planned source arguments selection paginated
                (resolver.planOurs scope.graph.settings.loader.batchSize arguments column value)
                (fun plan planned => FieldResolver.planOurs_paginated paginated planned) ?_
              intro cursor history
              simp only [fetchField, strategy, keys]
              exact reads _ history

/-- What a field takes out of its parent is no page, and arguments make no difference. -/
theorem reaches_inParent (lists : store.Lists answer)
    (inParent : resolver.strategy = .embedded ∨ resolver.strategy = .column) :
    ∃ outcome : Except ResolveFault Resolved,
      (∀ resolved, outcome = .ok resolved → ¬ resolved.IsPage) ∧
      ∀ cursor history, ∃ made,
        (scope.fetchField resolver source { arguments with cursor } selection).Reaches store
          scope.graph.settings.loader.batchSize history (history ++ made) (.done outcome) := by
  have taken : ∃ answerOf : Value → Resolved, (∀ value, ¬ (answerOf value).IsPage) ∧
      ∀ cursor, scope.fetchField resolver source { arguments with cursor } selection =
        scope.readColumn source resolver.field.fieldname fun value =>
          .done (.ok (answerOf value)) := by
    rcases inParent with strategy | strategy
    · refine ⟨resolver.embeddedAnswer scope.graph.catalog,
        FieldResolver.not_isPage_embeddedAnswer _, fun _ => ?_⟩
      simp only [fetchField, strategy]
    · refine ⟨FieldResolver.columnAnswer, FieldResolver.not_isPage_columnAnswer, fun _ => ?_⟩
      simp only [fetchField, strategy]
  obtain ⟨answerOf, noPage, same⟩ := taken
  obtain ⟨held, reads⟩ := scope.readColumn_steady lists
    scope.graph.settings.loader.batchSize source resolver.field.fieldname
  simp only [same]
  cases held with
  | error fault =>
      exact ⟨.error fault, fun _ same => absurd same error_ne_ok, fun _ history => reads _ history⟩
  | ok value =>
      refine ⟨.ok (answerOf value), ?_, fun _ history => reads _ history⟩
      rintro resolved same
      cases same
      exact noPage value

end

end

section

variable (scope : Scope) (store : Store) (source : Record) (arguments : Arguments)
  (info : FieldInfo)

/-- In every session at rest, the field ends with a result after some calls. -/
def ResolvesTo (history : History) (result : Except ResolveError Resolved) (calls : History) :
    Prop :=
  ∀ session : Session, session.Rests scope.graph.settings.loader.batchSize →
    session.history = history →
    (scope.resolve source arguments info).Ends store scope.graph.settings.loader session result
      calls

end

/-- A page as a client has read it. -/
structure Turn where
  page : Page
  items : List Record
  next : Option String

end Scope

namespace Page

/-- The next cursor of a page, asked for after its items. -/
def turned (page : Page) (store : Store) (history : History) : Access (Option String) :=
  let read := page.items store history
  read.page.nextCursor store read.history

/-- The items and the next cursor of a page come from one reply. -/
theorem read_of_replied {store : Store} {page : Page} {history : History} {reply : StorePage}
    (unread : page.window = none) (replied : store history page.windowQuery = .page reply) :
    (page.items store history).outcome = .finished (.ok (windowOf page.request reply).items) ∧
      (page.turned store history).outcome = .finished (.ok reply.nextCursor) := by
  simp only [turned, items, readWindow, unread, replied]
  exact ⟨rfl, rfl⟩

end Page

namespace Scope

section

variable (scope : Scope) (store : Store) (source : Record) (arguments : Arguments)
  (info : FieldInfo)

/-- The field is resolved from a cursor, and the page is read. -/
inductive TurnsTo (cursor : Option String) (history : History) (turn : Turn) : History → Prop
  | read {calls : History}
      (resolved : scope.ResolvesTo store source { arguments with cursor } info history
        (.ok (.page turn.page)) calls)
      (items : (turn.page.items store (history ++ calls)).outcome = .finished (.ok turn.items))
      (next : (turn.page.turned store (history ++ calls)).outcome = .finished (.ok turn.next)) :
      TurnsTo cursor history turn (turn.page.turned store (history ++ calls)).history

/-- Page by page, each from the next cursor of the one before, until there is none. -/
inductive Turns : Option String → History → List Turn → Prop
  | last {cursor : Option String} {history after : History} {turn : Turn}
      (turns : scope.TurnsTo store source arguments info cursor history turn after)
      (final : turn.next = none) : Turns cursor history [turn]
  | more {cursor : Option String} {history after : History} {turn : Turn} {next : String}
      {rest : List Turn}
      (turns : scope.TurnsTo store source arguments info cursor history turn after)
      (goesOn : turn.next = some next) (onward : Turns (some next) after rest) :
      Turns cursor history (turn :: rest)

end

section

variable {scope : Scope} {store : Store} {source : Record} {arguments : Arguments}
  {info : FieldInfo}

/-- A page for each link of a chain of cursors. -/
theorem turns_of_walks {request : PageRequest} (resolves : ∀ cursor history, ∃ calls,
      scope.ResolvesTo store source { arguments with cursor } info history
        (.ok (scope.opened { request with cursor })) calls)
    {cursor : Option String} {rows : List Value}
    (walks : store.Walks scope.context request.location request.select cursor rows)
    (history : History) :
    ∃ turns, scope.Turns store source arguments info cursor history turns ∧
      (∀ turn ∈ turns, ∃ cursor, turn.page = ⟨scope.context, { request with cursor }, none, none⟩) ∧
      turns.flatMap (·.items) =
        rows.map (Record.ofRow .list request.typename request.location) := by
  induction walks generalizing history with
  | @page cursor rows pages replied front last more ih =>
      obtain ⟨calls, resolved⟩ := resolves cursor history
      let page : Page := ⟨scope.context, { request with cursor }, none, none⟩
      let reply := pages (history ++ calls) request.limit
      have answered : store (history ++ calls) page.windowQuery = .page reply :=
        replied (history ++ calls) request.limit
      obtain ⟨items, next⟩ := Page.read_of_replied rfl answered
      let turn : Turn := ⟨page, (Page.windowOf page.request reply).items, reply.nextCursor⟩
      have turns : scope.TurnsTo store source arguments info cursor history turn _ :=
        .read resolved items next
      cases following : reply.nextCursor with
      | none =>
          refine ⟨[turn], .last turns following, ?_, ?_⟩
          · intro other member
            obtain rfl := List.mem_singleton.mp member
            exact ⟨cursor, rfl⟩
          · rw [List.flatMap_singleton, ← last _ _ following]
            rfl
      | some cursor' =>
          obtain ⟨rest, onward, same, covers⟩ := ih _ _ _ following _
          refine ⟨turn :: rest, .more turns following onward, ?_, ?_⟩
          · intro other member
            rcases List.mem_cons.mp member with rfl | later
            · exact ⟨cursor, rfl⟩
            · exact same other later
          · obtain ⟨later, split⟩ := front (history ++ calls) request.limit
            rw [← split, List.drop_left] at covers
            rw [List.flatMap_cons, covers, ← split, List.map_append]
            rfl

theorem resolvesTo_of_reached {resolver : FieldResolver} {history : History}
    {outcome : Except ResolveFault Resolved}
    (known : scope.graph.resolver? info.parentType info.fieldname = some resolver)
    (reached : ∃ made, (scope.fetchField resolver source arguments info.selection).Reaches store
      scope.graph.settings.loader.batchSize history (history ++ made) (.done outcome)) :
    ∃ calls, scope.ResolvesTo store source arguments info history
      (outcome.mapError (scope.framed resolver source info)) calls := by
  obtain ⟨made, reaches⟩ := reached
  refine ⟨made, ?_⟩
  rintro session rests rfl
  rw [resolve_eq known]
  exact (reaches.map _).ends rests

end

section

variable (scope : Scope) (store : Store) (source : Record) (arguments : Arguments)
  (info : FieldInfo) (resolver : FieldResolver)
  (answer : RequestContext → Location → Statement → List Value)

/-- How a field turns out that is resolved without a cursor and then from page to page. -/
inductive Paged (history : History) : Except ResolveError Resolved → Prop
  /-- There are no pages, whatever the cursor. -/
  | failed {error : ResolveError}
      (always : ∀ cursor later, ∃ calls,
        scope.ResolvesTo store source { arguments with cursor } info later (.error error) calls) :
      Paged history (.error error)
  /-- The value of the field is inside its parent. -/
  | inParent {resolved : Resolved}
      (inside : resolver.strategy = .embedded ∨ resolver.strategy = .column)
      (noPage : ¬ resolved.IsPage) : Paged history (.ok resolved)
  /-- The pages hold all rows in order, and are the same but for the cursor. -/
  | covered {request : PageRequest} {turns : List Turn}
      (proper : request.Proper scope.graph.settings.paging)
      (turned : scope.Turns store source arguments info none history turns)
      (same : ∀ turn ∈ turns, ∃ cursor,
        turn.page = ⟨scope.context, { request with cursor }, none, none⟩)
      (covers : turns.flatMap (·.items) =
        (answer scope.context request.location request.select).map
          (Record.ofRow .list request.typename request.location)) :
      Paged history (.ok (scope.opened { request with cursor := none }))

end

/-- A paginated field is resolved, and if it comes to pages, they hold the complete answer to
one select in order. -/
theorem paging_covers {scope : Scope} {store : Store} {source : Record} {arguments : Arguments}
    {info : FieldInfo} {resolver : FieldResolver}
    {answer : RequestContext → Location → Statement → List Value}
    (known : scope.graph.resolver? info.parentType info.fieldname = some resolver)
    (paginated : resolver.field.isPaginated = true) (lists : store.Lists answer)
    (history : History) :
    ∃ result calls,
      scope.ResolvesTo store source { arguments with cursor := none } info history result calls ∧
      scope.Paged store source arguments info resolver answer history result := by
  by_cases inParent : resolver.strategy = .embedded ∨ resolver.strategy = .column
  · obtain ⟨outcome, noPage, reaches⟩ :=
      scope.reaches_inParent source arguments info.selection lists inParent
    have resolves := fun cursor history => resolvesTo_of_reached known (reaches cursor history)
    obtain ⟨calls, first⟩ := resolves none history
    refine ⟨_, calls, first, ?_⟩
    cases outcome with
    | error fault => exact .failed resolves
    | ok resolved => exact .inParent inParent (noPage resolved rfl)
  · obtain ⟨outcome, proper, reaches⟩ := scope.exists_sameRequest source arguments info.selection
      lists paginated (not_or.mp inParent)
    have resolves := fun cursor history => resolvesTo_of_reached known (reaches cursor history)
    obtain ⟨calls, first⟩ := resolves none history
    refine ⟨_, calls, first, ?_⟩
    cases outcome with
    | error fault => exact .failed resolves
    | ok request =>
        have sound := proper request rfl
        have walks := lists scope.context request.location request.select sound.select
        obtain ⟨turns, turned, same, covers⟩ := turns_of_walks resolves walks history
        exact .covered sound turned same covers

theorem ResolvesTo.unique {scope : Scope} {store : Store} {source : Record}
    {arguments : Arguments} {info : FieldInfo} {history calls others : History}
    {first second : Except ResolveError Resolved}
    (one : scope.ResolvesTo store source arguments info history first calls)
    (other : scope.ResolvesTo store source arguments info history second others) :
    first = second := by
  let session : Session := { Session.new scope.graph.settings.loader with history }
  have rests := (Session.rests_new scope.graph.settings.loader).withHistory history
  obtain ⟨enough, ends⟩ := one session rests rfl
  obtain ⟨enough', ends'⟩ := other session rests rfl
  obtain ⟨_, ran⟩ := ends (max enough enough') (Nat.le_max_left ..)
  obtain ⟨_, ran'⟩ := ends' (max enough enough') (Nat.le_max_right ..)
  have same := congrArg Prod.fst (ran.symm.trans ran')
  exact (List.cons.inj (Outcome.finished.inj same)).1

namespace Owned

theorem lists_onePerPage : onePerPage.Lists fun _ _ _ => [first, second] := by
  intro context location select _
  refine .page (fun _ _ => ⟨[first], some "next"⟩) (fun _ _ => rfl) (fun _ _ => ⟨[second], rfl⟩)
    (fun _ _ final => nomatch final) fun _ _ next goesOn => ?_
  obtain rfl := Option.some.inj goesOn
  exact .page (fun _ _ => ⟨[second], none⟩) (fun _ _ => rfl) (fun _ _ => List.prefix_refl _)
    (fun _ _ _ => rfl) nofun

/-- An owner on each page, and both in the end. -/
theorem paging_covers_owners : ∃ (request : PageRequest) (turns : List Turn), request.Proper {} ∧
    (scope true).Turns onePerPage thing {} info none [] turns ∧
    (∀ turn ∈ turns, ∃ cursor, turn.page = ⟨⟨"req", .null⟩, { request with cursor }, none, none⟩) ∧
    turns.flatMap (·.items) = [first, second].map (.ofRow .list "Owner" ⟨"db", "Owners"⟩) := by
  have known : (scope true).graph.resolver? info.parentType info.fieldname =
      some (resolver true) := by decide
  have reaches : ((scope true).fetchField (resolver true) thing {} info.selection).Reaches
      onePerPage 100 [] ([] ++ []) (.done (.ok (.page page))) := .here
  obtain ⟨_, opens⟩ := resolvesTo_of_reached known ⟨[], reaches⟩
  obtain ⟨result, calls, resolves, paged⟩ := @paging_covers (scope true) onePerPage thing {} info
    (resolver true) _ known rfl lists_onePerPage []
  have same := resolves.unique opens
  cases paged with
  | failed => contradiction
  | inParent inside => rcases inside with embedded | column <;> contradiction
  | @covered request turns proper turned pages covers =>
      have asked := congrArg Page.request (Resolved.page.inj (Except.ok.inj same))
      have typename : request.typename = "Owner" := congrArg PageRequest.typename asked
      have location : request.location = ⟨"db", "Owners"⟩ := congrArg PageRequest.location asked
      rw [typename, location] at covers
      exact ⟨request, turns, proper, turned, pages, covers⟩

end Owned

end Scope

end DocGraph
