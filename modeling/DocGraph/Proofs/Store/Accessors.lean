import DocGraph.Store.Page
import Mathlib.Data.List.Forall2

/-!
# Accesses to a page in a row

A page keeps its window and its count in two cells. An access asks the store as long as no
access to its cell succeeded. From then on every access to the cell answers from the one reply
that filled it, and what happens to the other cell makes no difference.
-/

namespace DocGraph

open Json

namespace Page

inductive Accessor where
  | cursor
  | items
  | nextCursor
  | total
deriving DecidableEq

inductive Answer where
  | cursor (cursor : Option String)
  | items (items : List Record)
  | nextCursor (cursor : Option String)
  | total (total : Nat)
deriving DecidableEq

inductive Cell where
  | window
  | total
deriving DecidableEq

def Accessor.cell? : Accessor → Option Cell
  | cursor => none
  | items => some .window
  | nextCursor => some .window
  | total => some .total

def access (store : Store) (page : Page) (history : History) : Accessor → Access Answer
  | .cursor => ⟨.finished (.ok (.cursor page.cursor)), page, history⟩
  | .items => (page.items store history).map .items
  | .nextCursor => (page.nextCursor store history).map .nextCursor
  | .total => (page.readTotal store history).map .total

def Access.Succeeds {α : Type} (access : Access α) : Prop :=
  ∃ answer, access.outcome = .finished (.ok answer)

/-- One access, with the page and the history before it. -/
structure Step where
  accessor : Accessor
  page : Page
  history : History
  access : Access Answer

def step (store : Store) (page : Page) (history : History) (accessor : Accessor) : Step :=
  ⟨accessor, page, history, page.access store history accessor⟩

/-- Accesses one after the other, each to the page that the one before left behind. -/
def steps (store : Store) : Page → History → List Accessor → List Step
  | _, _, [] => []
  | page, history, accessor :: rest =>
      let first := page.step store history accessor
      first :: steps store first.access.page first.access.history rest

/-- What the accessors of a cell ask for: one page of the select from the cursor on, or the
whole count. -/
def query (page : Page) : Cell → StoreQuery
  | .window => {
      context := page.context
      location := page.request.location
      statement := page.request.select
      cursor := page.request.cursor
      limit := page.request.limit }
  | .total => {
      context := page.context
      location := page.request.location
      statement := page.request.count
      cursor := none
      limit := none }

/-- The record of a row in a list. It knows where it lies if its id is a text. -/
inductive Tags (request : PageRequest) (row : Value) : Record → Prop
  | described {id : String} (held : row.get? "id" = some (.string id)) :
      Tags request row ⟨row, some ⟨.list, request.typename, request.location, id⟩⟩
  | plain (missing : ∀ id, row.get? "id" ≠ some (.string id)) : Tags request row ⟨row, none⟩

def Counts (reply : StorePage) (total : Nat) : Prop :=
  reply.items.head? = some (.number (.integer total))

/-- What an accessor makes of the reply to its query: the rows as records of a list, the cursor
that came with them, or the natural number in front. -/
inductive Accessor.Reads (request : PageRequest) :
    Accessor → StoreReply → Outcome (Except StoreError Answer) → Prop
  | items {reply : StorePage} {items : List Record}
      (tagged : List.Forall₂ (Tags request) reply.items items) :
      Reads request .items (.page reply) (.finished (.ok (.items items)))
  | nextCursor {reply : StorePage} :
      Reads request .nextCursor (.page reply) (.finished (.ok (.nextCursor reply.nextCursor)))
  | total {reply : StorePage} {total : Nat} (counted : Counts reply total) :
      Reads request .total (.page reply) (.finished (.ok (.total total)))
  | uncounted {reply : StorePage} (other : ∀ total, ¬ Counts reply total) :
      Reads request .total (.page reply)
        (.finished (.error ⟨request.location, "count query did not return a number"⟩))
  | failed {accessor : Accessor} {error : StoreError} :
      Reads request accessor (.failed error) (.finished (.error error))
  | aborted {accessor : Accessor} : Reads request accessor .aborted .aborted

/-- A reply that the accessors of a cell can be answered from. A count has to be a natural
number. -/
def Cell.Fills : Cell → StoreReply → Prop
  | .window, reply => ∃ rows, reply = .page rows
  | .total, reply => ∃ rows total, reply = .page rows ∧ Counts rows total

/-- How an access goes on after other ones: the rules of a page. -/
inductive Follows (store : Store) (page : Page) (before : List Step) (step : Step) : Prop
  | cursor (accessor : step.accessor = .cursor) (silent : step.access.history = step.history)
      (answer : step.access.outcome = .finished (.ok (.cursor page.request.cursor)))
  | asks {cell : Cell} (uses : step.accessor.cell? = some cell)
      (missing : ∀ earlier ∈ before, earlier.accessor.cell? = some cell → ¬ earlier.access.Succeeds)
      (call : step.access.history = step.history ++ [page.query cell])
      (answer : step.accessor.Reads page.request (store step.history (page.query cell))
        step.access.outcome)
      (success : step.access.Succeeds ↔ cell.Fills (store step.history (page.query cell)))
  | remembers {cell : Cell} (uses : step.accessor.cell? = some cell) {source : Step}
      (member : source ∈ before) (same : source.accessor.cell? = some cell)
      (call : source.access.history = source.history ++ [page.query cell])
      (success : source.access.Succeeds) (silent : step.access.history = step.history)
      (answer : step.accessor.Reads page.request (store source.history (page.query cell))
        step.access.outcome)

theorem tags_ofRow (request : PageRequest) (row : Value) :
    Tags request row (.ofRow .list request.typename request.location row) := by
  cases held : Record.idOf? row with
  | some id =>
      rw [Record.ofRow, held]
      exact .described (Record.idOf?_eq_some.mp held)
  | none =>
      rw [Record.ofRow, held]
      refine .plain fun id found => ?_
      rw [Record.idOf?_eq_some.mpr found] at held
      contradiction

theorem counts_iff {reply : StorePage} {total : Nat} :
    Counts reply total ↔ reply.items.head?.bind (·.natural?) = some total := by
  rw [Option.bind_eq_some_iff]
  simp only [Counts, Value.natural?_eq_some, exists_eq_right]

def Accessor.reading (request : PageRequest) :
    Accessor → StoreReply → Outcome (Except StoreError Answer)
  | .cursor, _ => .finished (.ok (.cursor request.cursor))
  | .items, .page reply => .finished (.ok (.items (windowOf request reply).items))
  | .nextCursor, .page reply => .finished (.ok (.nextCursor (windowOf request reply).nextCursor))
  | .total, .page reply => .finished ((countOf request reply).map .total)
  | _, .failed error => .finished (.error error)
  | _, .aborted => .aborted

def Holds (page : Page) (reply : StorePage) : Cell → Prop
  | .window => page.window = some (windowOf page.request reply)
  | .total => ∃ total, countOf page.request reply = .ok total ∧ page.total = some total

def Empty (page : Page) : Cell → Prop
  | .window => page.window = none
  | .total => page.total = none

def fill (page : Page) (reply : StorePage) : Cell → Page
  | .window => { page with window := some (windowOf page.request reply) }
  | .total => { page with total := (countOf page.request reply).toOption }

section

variable {page : Page} {history : History} {accessor : Accessor} {cell : Cell}

@[simp] theorem query_window (page : Page) : page.query .window = page.windowQuery := rfl

@[simp] theorem query_total (page : Page) : page.query .total = page.countQuery := rfl

theorem reads_reading {request : PageRequest} (uses : accessor.cell? = some cell)
    (reply : StoreReply) : accessor.Reads request reply (accessor.reading request reply) := by
  cases reply with
  | failed error => cases accessor <;> first | contradiction | exact .failed
  | aborted => cases accessor <;> first | contradiction | exact .aborted
  | page rows =>
      cases accessor with
      | cursor => contradiction
      | items =>
          apply Accessor.Reads.items
          rw [windowOf, List.forall₂_map_right_iff, List.forall₂_same]
          exact fun row _ => tags_ofRow request row
      | nextCursor => exact .nextCursor
      | total =>
          rw [Accessor.reading, countOf]
          cases counted : rows.items.head?.bind (·.natural?) with
          | some total => exact .total (counts_iff.mpr counted)
          | none =>
              refine .uncounted fun total counts => ?_
              rw [counts_iff.mp counts] at counted
              contradiction

theorem reading_eq_ok {request : PageRequest} {reply : StoreReply}
    (uses : accessor.cell? = some cell) :
    (∃ answer, accessor.reading request reply = .finished (.ok answer)) ↔ cell.Fills reply := by
  cases reply with
  | failed error => cases accessor <;> cases uses <;> simp [Accessor.reading, Cell.Fills]
  | aborted => cases accessor <;> cases uses <;> simp [Accessor.reading, Cell.Fills]
  | page rows =>
      cases accessor with
      | cursor => contradiction
      | items =>
          cases uses
          exact ⟨fun _ => ⟨rows, rfl⟩, fun _ => ⟨_, rfl⟩⟩
      | nextCursor =>
          cases uses
          exact ⟨fun _ => ⟨rows, rfl⟩, fun _ => ⟨_, rfl⟩⟩
      | total =>
          cases uses
          simp only [Accessor.reading, countOf, Cell.Fills, counts_iff]
          cases counted : rows.items.head?.bind (·.natural?) <;> simp [counted, Except.map]

/-- An access to a full cell answers from the reply in it and asks nothing. -/
theorem access_of_holds (store : Store) (history : History) {reply : StorePage}
    (uses : accessor.cell? = some cell) (holds : page.Holds reply cell) :
    page.access store history accessor =
      ⟨accessor.reading page.request (.page reply), page, history⟩ := by
  cases accessor with
  | cursor => contradiction
  | items =>
      cases uses
      have held : page.window = some (windowOf page.request reply) := holds
      simp only [access, items, readWindow, held]
      rfl
  | nextCursor =>
      cases uses
      have held : page.window = some (windowOf page.request reply) := holds
      simp only [access, nextCursor, readWindow, held]
      rfl
  | total =>
      cases uses
      obtain ⟨total, counted, held⟩ := holds
      simp only [access, readTotal, held, Accessor.reading, counted]
      rfl

def Takes (page : Page) (cell : Cell) (accessor : Accessor) (history : History)
    (reply : StoreReply) (access : Access Answer) : Prop :=
  access.outcome = accessor.reading page.request reply ∧
    access.history = history ++ [page.query cell] ∧
    ((access.Succeeds ∧ ∃ rows, reply = .page rows ∧ access.page = page.fill rows cell ∧
        access.page.Holds rows cell) ∨
      ¬ access.Succeeds ∧ access.page = page)

theorem not_succeeds {α : Type} {access : Access α} {outcome : Outcome (Except StoreError α)}
    (same : access.outcome = outcome) (failed : ∀ answer, outcome ≠ .finished (.ok answer)) :
    ¬ access.Succeeds := by
  rintro ⟨answer, succeeded⟩
  exact failed answer (same.symm.trans succeeded)

/-- An access to an empty cell makes its query and answers from the reply. Only a reply that
it can be answered from is kept. -/
theorem access_of_empty (store : Store) (history : History) (uses : accessor.cell? = some cell)
    (empty : page.Empty cell) :
    page.Takes cell accessor history (store history (page.query cell))
      (page.access store history accessor) := by
  cases accessor with
  | cursor => contradiction
  | items =>
      cases uses
      have empty : page.window = none := empty
      simp only [access, items, readWindow, empty, query_window]
      cases store history page.windowQuery with
      | page rows => exact ⟨rfl, rfl, .inl ⟨⟨_, rfl⟩, rows, rfl, rfl, rfl⟩⟩
      | failed error => exact ⟨rfl, rfl, .inr ⟨not_succeeds rfl nofun, rfl⟩⟩
      | aborted => exact ⟨rfl, rfl, .inr ⟨not_succeeds rfl nofun, rfl⟩⟩
  | nextCursor =>
      cases uses
      have empty : page.window = none := empty
      simp only [access, nextCursor, readWindow, empty, query_window]
      cases store history page.windowQuery with
      | page rows => exact ⟨rfl, rfl, .inl ⟨⟨_, rfl⟩, rows, rfl, rfl, rfl⟩⟩
      | failed error => exact ⟨rfl, rfl, .inr ⟨not_succeeds rfl nofun, rfl⟩⟩
      | aborted => exact ⟨rfl, rfl, .inr ⟨not_succeeds rfl nofun, rfl⟩⟩
  | total =>
      cases uses
      have empty : page.total = none := empty
      simp only [access, readTotal, empty, query_total]
      cases store history page.countQuery with
      | page rows =>
          cases counted : countOf page.request rows with
          | ok total =>
              simp only [counted]
              refine ⟨?_, rfl, .inl ⟨⟨.total total, rfl⟩, rows, rfl, ?_, total, counted, rfl⟩⟩
              · simp only [Accessor.reading, counted]
                rfl
              · simp only [Access.map, fill, counted, Except.toOption]
          | error error =>
              simp only [counted]
              refine ⟨?_, rfl, .inr ⟨not_succeeds rfl nofun, rfl⟩⟩
              simp only [Accessor.reading, counted]
              rfl
      | failed error => exact ⟨rfl, rfl, .inr ⟨not_succeeds rfl nofun, rfl⟩⟩
      | aborted => exact ⟨rfl, rfl, .inr ⟨not_succeeds rfl nofun, rfl⟩⟩

theorem not_holds_of_empty {reply : StorePage} (empty : page.Empty cell) :
    ¬ page.Holds reply cell := by
  cases cell with
  | window =>
      intro holds
      exact nomatch empty.symm.trans holds
  | total =>
      rintro ⟨total, _, holds⟩
      exact nomatch empty.symm.trans holds

@[simp] theorem context_fill (rows : StorePage) : (page.fill rows cell).context = page.context := by
  cases cell <;> rfl

@[simp] theorem request_fill (rows : StorePage) : (page.fill rows cell).request = page.request := by
  cases cell <;> rfl

/-- What comes into one cell leaves the other one as it was. -/
theorem fill_other (page : Page) {other : Cell} (apart : other ≠ cell) (rows : StorePage) :
    ((page.fill rows cell).Empty other ↔ page.Empty other) ∧
      ∀ reply, (page.fill rows cell).Holds reply other ↔ page.Holds reply other := by
  cases cell <;> cases other <;> first | contradiction | exact ⟨Iff.rfl, fun _ => Iff.rfl⟩

end

/-- A cell after some accesses: none to it succeeded, or it holds the reply to one of them. -/
inductive Kept (store : Store) (page : Page) (before : List Step) (now : Page) (cell : Cell) : Prop
  | missing (empty : now.Empty cell)
      (none : ∀ earlier ∈ before, earlier.accessor.cell? = some cell → ¬ earlier.access.Succeeds)
  | held {source : Step} {rows : StorePage} (member : source ∈ before)
      (same : source.accessor.cell? = some cell)
      (call : source.access.history = source.history ++ [page.query cell])
      (success : source.access.Succeeds)
      (replied : store source.history (page.query cell) = .page rows) (holds : now.Holds rows cell)

/-- Where a page may stand after some accesses. -/
structure Remembers (store : Store) (page : Page) (before : List Step) (now : Page) : Prop where
  context : now.context = page.context
  request : now.request = page.request
  cells : ∀ cell, Kept store page before now cell

section

variable {store : Store} {page now next : Page} {before : List Step} {last : Step} {cell : Cell}

/-- An access that fills no cell, or another one, changes nothing about this one. -/
theorem Kept.snoc (kept : Kept store page before now cell)
    (unused : last.accessor.cell? = some cell → ¬ last.access.Succeeds)
    (empty : now.Empty cell → next.Empty cell)
    (holds : ∀ reply, now.Holds reply cell → next.Holds reply cell) :
    Kept store page (before ++ [last]) next cell := by
  cases kept with
  | missing nothing none =>
      refine .missing (empty nothing) fun earlier member => ?_
      rcases List.mem_append.mp member with member | final
      · exact none earlier member
      · obtain rfl := List.mem_singleton.mp final
        exact unused
  | held member same call success replied held =>
      exact .held (List.mem_append_left _ member) same call success replied (holds _ held)

theorem Remembers.query_eq (remembers : Remembers store page before now) (cell : Cell) :
    now.query cell = page.query cell := by
  cases cell <;> simp only [query, remembers.context, remembers.request]

/-- Everything stays as it was if an access leaves the page alone and fills nothing. -/
theorem Remembers.snoc_same (remembers : Remembers store page before now)
    (unused : ∀ cell, last.accessor.cell? = some cell → now.Empty cell → ¬ last.access.Succeeds) :
    Remembers store page (before ++ [last]) now where
  context := remembers.context
  request := remembers.request
  cells := by
    intro cell
    cases remembers.cells cell with
    | missing empty none =>
        exact (Kept.missing empty none).snoc (fun uses => unused cell uses empty) id fun _ => id
    | held member same call success replied holds =>
        exact .held (List.mem_append_left _ member) same call success replied holds

/-- One access follows the rules, and the page goes on remembering. -/
theorem Remembers.step (remembers : Remembers store page before now) (history : History)
    (accessor : Accessor) :
    Follows store page before (now.step store history accessor) ∧
      (¬ (now.access store history accessor).Succeeds →
        (now.access store history accessor).page = now) ∧
      Remembers store page (before ++ [now.step store history accessor])
        (now.access store history accessor).page := by
  cases uses : accessor.cell? with
  | none =>
      obtain rfl : accessor = .cursor := by cases accessor <;> first | rfl | contradiction
      have first : now.cursor = page.request.cursor := congrArg PageRequest.cursor remembers.request
      exact ⟨.cursor rfl rfl (first ▸ rfl), fun _ => rfl, remembers.snoc_same nofun⟩
  | some cell =>
      cases remembers.cells cell with
      | missing empty none =>
          obtain ⟨answer, call, filled⟩ := access_of_empty store history uses empty
          rw [remembers.query_eq, remembers.request] at answer
          rw [remembers.query_eq] at call filled
          have success : (now.access store history accessor).Succeeds ↔
              cell.Fills (store history (page.query cell)) := by
            rw [Access.Succeeds, answer]
            exact reading_eq_ok uses
          have reads : accessor.Reads page.request (store history (page.query cell)) _ :=
            reads_reading uses _
          rw [← answer] at reads
          refine ⟨.asks uses none call reads success, ?_⟩
          rcases filled with ⟨succeeded, rows, replied, filled, holds⟩ | ⟨failure, same⟩
          · refine ⟨fun failure => absurd succeeded failure, ?_, ?_, fun other => ?_⟩
            · rw [filled, context_fill, remembers.context]
            · rw [filled, request_fill, remembers.request]
            · by_cases own : other = cell
              · subst own
                exact .held (List.mem_append_right _ (.head _)) uses call succeeded replied holds
              · obtain ⟨empty, held⟩ := fill_other now own rows
                rw [filled]
                refine (remembers.cells other).snoc (fun used => ?_) empty.mpr fun reply =>
                  (held reply).mpr
                exact absurd (Option.some.inj (used.symm.trans uses)) own
          · rw [same]
            exact ⟨fun _ => rfl, remembers.snoc_same fun other _ _ => failure⟩
      | @held source rows member same call success replied holds =>
          have kept := access_of_holds store history uses holds
          have unchanged : (now.access store history accessor).page = now := by rw [kept]
          refine ⟨.remembers uses member same call success ?_ ?_, fun _ => unchanged, ?_⟩
          · exact congrArg Access.history kept
          · have answer : (now.access store history accessor).outcome =
                accessor.reading now.request (.page rows) := congrArg Access.outcome kept
            rw [← replied, remembers.request] at answer
            have reads : accessor.Reads page.request (store source.history (page.query cell)) _ :=
              reads_reading uses _
            rwa [← answer] at reads
          · rw [unchanged]
            refine remembers.snoc_same fun other used empty => ?_
            obtain rfl := Option.some.inj (used.symm.trans uses)
            exact absurd holds (not_holds_of_empty empty)

theorem Remembers.steps (remembers : Remembers store page before now) {history : History}
    {accessors : List Accessor} {middle after : List Step}
    (split : Page.steps store now history accessors = middle ++ last :: after) :
    Follows store page (before ++ middle) last ∧
      (¬ last.access.Succeeds → last.access.page = last.page) := by
  induction accessors generalizing now history before middle with
  | nil => exact absurd split.symm (by simp [Page.steps])
  | cons accessor rest ih =>
      obtain ⟨follows, same, remembers⟩ := remembers.step history accessor
      cases middle with
      | nil =>
          obtain ⟨rfl, _⟩ := List.cons.inj split
          rw [List.append_nil]
          exact ⟨follows, same⟩
      | cons first middle =>
          obtain ⟨rfl, onward⟩ := List.cons.inj split
          have later := ih remembers onward
          rwa [List.append_assoc] at later

end

theorem remembers_fresh (store : Store) (context : RequestContext) (request : PageRequest) :
    Remembers store ⟨context, request, none, none⟩ [] ⟨context, request, none, none⟩ where
  context := rfl
  request := rfl
  cells := by
    intro cell
    refine .missing ?_ fun _ member => absurd member List.not_mem_nil
    cases cell <;> rfl

/-- Every access of a run follows the rules of a page, and one that fails leaves the page as
it was. -/
theorem accesses_follow (store : Store) (context : RequestContext) (request : PageRequest)
    (history : History) (accessors : List Accessor) {before after : List Step} {last : Step}
    (split : steps store ⟨context, request, none, none⟩ history accessors =
      before ++ last :: after) :
    Follows store ⟨context, request, none, none⟩ before last ∧
      (¬ last.access.Succeeds → last.access.page = last.page) :=
  (remembers_fresh store context request).steps split

/-- A store that fails, then has a page with a next one, then cannot count at first. -/
def unsteady : Store := fun history _ =>
  match history.length with
  | 0 => .failed ⟨⟨"db", "Docs"⟩, "busy"⟩
  | 1 => .page ⟨[.object [("id", .string "1")]], some "next"⟩
  | 2 => .page ⟨[.string "many"], none⟩
  | _ => .page ⟨[.number (.integer 3)], none⟩

def someDocs : PageRequest where
  typename := "Doc"
  location := ⟨"db", "Docs"⟩
  select := ⟨"SELECT c.id FROM c ORDER BY c.id", []⟩
  count := ⟨"SELECT VALUE COUNT(1) FROM c", []⟩
  cursor := none
  limit := some 1

def unsteadySteps : List Step :=
  steps unsteady ⟨⟨"req", .null⟩, someDocs, none, none⟩ []
    [.items, .items, .total, .total, .nextCursor, .total]

theorem accesses_follow_unsteady :
    unsteadySteps.map (·.access.outcome) = [
      .finished (.error ⟨⟨"db", "Docs"⟩, "busy"⟩),
      .finished (.ok (.items [⟨.object [("id", .string "1")],
        some ⟨.list, "Doc", ⟨"db", "Docs"⟩, "1"⟩⟩])),
      .finished (.error ⟨⟨"db", "Docs"⟩, "count query did not return a number"⟩),
      .finished (.ok (.total 3)),
      .finished (.ok (.nextCursor (some "next"))),
      .finished (.ok (.total 3))] ∧
    ∀ before last after, unsteadySteps = before ++ last :: after →
      Follows unsteady ⟨⟨"req", .null⟩, someDocs, none, none⟩ before last ∧
      (¬ last.access.Succeeds → last.access.page = last.page) :=
  ⟨rfl, fun _ _ _ split => accesses_follow _ _ _ _ _ split⟩

end Page

end DocGraph
