import DocGraph.Proofs.Fetch.Alone
import DocGraph.Proofs.Outcome

namespace DocGraph

open Json

/-- A statement that lists columns of documents. -/
def Statement.IsSelect (statement : Statement) : Prop :=
  ∃ columns rest, statement.text =
    "SELECT " ++ Column.projection columns ++ " FROM " ++ Column.document ++ rest

theorem Catalog.isSelect_select {catalog : Catalog} {typename : String} {columns : List String}
    {filters : List Filter} {keys : List SortKey} {statement : Statement}
    (selected : catalog.select typename columns filters keys = .ok statement) :
    statement.IsSelect := by
  obtain ⟨_, _, selected⟩ := bind_eq_ok.mp selected
  obtain ⟨condition, _, selected⟩ := bind_eq_ok.mp selected
  obtain ⟨order, _, selected⟩ := bind_eq_ok.mp selected
  obtain rfl := pure_eq_ok.mp selected
  exact ⟨columns, conditionPart condition ++ " ORDER BY " ++ order, by
    simp only [String.append_assoc]⟩

theorem Batch.isSelect_statement (batch : Batch) : batch.statement.IsSelect :=
  ⟨batch.columns.names, " WHERE ARRAY_CONTAINS(" ++ idsParameter ++ ", "
    ++ Column.reference Column.id ++ ")", by simp only [statement, String.append_assoc]⟩

namespace Store

/-- From a cursor on, a finite chain of cursors walks through the rows, whatever was asked
before and whatever the limit of a page. -/
inductive Walks (store : Store) (context : RequestContext) (location : Location)
    (select : Statement) : Option String → List Value → Prop
  | page {cursor : Option String} {rows : List Value} (page : History → Option Nat → StorePage)
      (replied : ∀ history limit, store history ⟨context, location, select, cursor, limit⟩ =
        .page (page history limit))
      (front : ∀ history limit, (page history limit).items <+: rows)
      (last : ∀ history limit, (page history limit).nextCursor = none →
        (page history limit).items = rows)
      (more : ∀ history limit next, (page history limit).nextCursor = some next →
        Walks store context location select (some next)
          (rows.drop (page history limit).items.length)) :
      Walks store context location select cursor rows

/-- The complete answer to every select is one sequence of rows, which cursors walk through. -/
def Lists (store : Store) (answer : RequestContext → Location → Statement → List Value) : Prop :=
  ∀ context location select, select.IsSelect →
    store.Walks context location select none (answer context location select)

variable {store : Store} {context : RequestContext} {location : Location} {select : Statement}
  {cursor : Option String} {rows : List Value}

/-- A chain that comes to an end never hands back the cursor that it was asked with. -/
theorem Walks.fresh (walks : store.Walks context location select cursor rows) {history : History}
    {limit : Option Nat} {page : StorePage} {next : String}
    (replied : store history ⟨context, location, select, cursor, limit⟩ = .page page)
    (goesOn : page.nextCursor = some next) : cursor ≠ some next := by
  induction walks with
  | page pages answers front last more ih =>
      obtain rfl := StoreReply.page.inj ((answers history limit).symm.trans replied)
      -- The chain would go on from where it stands, and never end.
      rintro rfl
      exact ih history limit next goesOn replied rfl

theorem Walks.drain (walks : store.Walks context location select cursor rows)
    (limit : Option Nat) (soFar : List Value) (history : History) :
    ∃ calls made, store.drain calls ⟨⟨context, location, select, cursor, limit⟩, soFar⟩ history =
      (.finished (.ok (soFar ++ rows)), history ++ made) := by
  induction walks generalizing soFar history with
  | @page cursor rows pages answers front last more ih =>
      have replied := answers history limit
      let asked : StoreQuery := ⟨context, location, select, cursor, limit⟩
      cases following : (pages history limit).nextCursor with
      | none =>
          refine ⟨1, [asked], ?_⟩
          simp only [Store.drain, replied, Drain.receive, Drain.absorb, following,
            last history limit following]
          rfl
      | some next =>
          have apart := (Walks.page pages answers front last more).fresh replied following
          obtain ⟨rest, split⟩ := front history limit
          obtain ⟨calls, made, drained⟩ := ih history limit next following
            (soFar ++ (pages history limit).items) (history ++ [asked])
          rw [← split, List.drop_left, List.append_assoc, List.append_assoc, split] at drained
          refine ⟨calls + 1, asked :: made, ?_⟩
          simp only [Store.drain, replied, Drain.receive, Drain.absorb, following, if_neg apart]
          exact drained

/-- A select is drained to all its rows. -/
theorem Walks.drains (walks : store.Walks context location select none rows)
    (limit : Option Nat) (history : History) :
    ∃ made, store.Drains history ⟨context, location, select, none, limit⟩ (.ok rows)
      (history ++ made) := by
  obtain ⟨calls, made, drained⟩ := walks.drain limit [] history
  exact ⟨made, calls, drained⟩

end Store

end DocGraph
