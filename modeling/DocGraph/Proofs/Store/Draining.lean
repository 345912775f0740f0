import DocGraph.Store.Drain

namespace DocGraph

open Json

/-- One call of a store and what came back. -/
structure Exchange where
  query : StoreQuery
  reply : StoreReply

/-- The calls from a query to a page without a next cursor, each with the cursor
that the page before it handed out, and all rows of the pages. -/
inductive Drained : StoreQuery → List Exchange → List Value → Prop
  | last {query : StoreQuery} {page : StorePage} (final : page.nextCursor = none) :
      Drained query [⟨query, .page page⟩] page.items
  | more {query : StoreQuery} {page : StorePage} {next : String} {calls : List Exchange}
      {rows : List Value} (goesOn : page.nextCursor = some next)
      (rest : Drained { query with cursor := some next } calls rows) :
      Drained query (⟨query, .page page⟩ :: calls) (page.items ++ rows)

/-- The calls that brought a query from its beginning to where a drain stands. -/
inductive Draining (query : StoreQuery) : List Exchange → Drain → Prop
  | start : Draining query [] (.start query)
  | more {calls : List Exchange} {drain : Drain} {page : StorePage} {next : String}
      (soFar : Draining query calls drain) (goesOn : page.nextCursor = some next) :
      Draining query (calls ++ [⟨drain.query, .page page⟩])
        ⟨{ drain.query with cursor := some next }, drain.rows ++ page.items⟩

/-- How a query ends with the last call made for it: with the rows of all pages, with the error
of the store, or with one about a cursor that was handed back. -/
inductive Ended (query : StoreQuery) : List Exchange → Except StoreError (List Value) → Prop
  | rows {calls : List Exchange} {rows : List Value} (drained : Drained query calls rows) :
      Ended query calls (.ok rows)
  | failed {calls : List Exchange} {drain : Drain} {error : StoreError}
      (soFar : Draining query calls drain) :
      Ended query (calls ++ [⟨drain.query, .failed error⟩]) (.error error)
  | repeated {calls : List Exchange} {drain : Drain} {page : StorePage} {cursor : String}
      (soFar : Draining query calls drain) (sent : drain.query.cursor = some cursor)
      (handed : page.nextCursor = some cursor) :
      Ended query (calls ++ [⟨drain.query, .page page⟩])
        (.error ⟨query.location, "store returned the same continuation cursor twice"⟩)

theorem Ended.drained {query : StoreQuery} {calls : List Exchange} {rows : List Value}
    (ended : Ended query calls (.ok rows)) : Drained query calls rows := by
  cases ended with
  | rows drained => exact drained

theorem Drained.calls_ne_nil {query : StoreQuery} {calls : List Exchange} {rows : List Value}
    (drained : Drained query calls rows) : calls ≠ [] := by
  cases drained with
  | last => exact List.cons_ne_nil _ _
  | more => exact List.cons_ne_nil _ _

theorem Draining.location_eq {query : StoreQuery} {calls : List Exchange} {drain : Drain}
    (soFar : Draining query calls drain) : drain.query.location = query.location := by
  induction soFar with
  | start => rfl
  | more _ _ ih => exact ih

/-- Calls that drain the rest complete the calls so far. -/
theorem Draining.drained {query : StoreQuery} {calls further : List Exchange} {drain : Drain}
    {rows : List Value} (soFar : Draining query calls drain)
    (rest : Drained drain.query further rows) :
    Drained { query with cursor := none } (calls ++ further) (drain.rows ++ rows) := by
  induction soFar generalizing further rows with
  | start => exact rest
  | more _ goesOn ih =>
      rw [List.append_assoc, List.append_assoc]
      exact ih (.more goesOn rest)

namespace Drain

variable {drain next : Drain} {reply : StoreReply}

theorem receive_more (received : drain.receive reply = .more next) :
    ∃ page cursor, reply = .page page ∧ page.nextCursor = some cursor ∧
      drain.query.cursor ≠ some cursor ∧
      next = ⟨{ drain.query with cursor := some cursor }, drain.rows ++ page.items⟩ := by
  cases reply with
  | failed error => simp [receive] at received
  | aborted => simp [receive] at received
  | page page =>
      simp only [receive, absorb] at received
      split at received
      · contradiction
      · next cursor handedOut =>
          split at received
          · contradiction
          · next fresh =>
              cases received
              exact ⟨page, cursor, rfl, handedOut, fresh, rfl⟩

theorem receive_ended_ok {rows : List Value} (received : drain.receive reply = .ended (.ok rows)) :
    ∃ page, reply = .page page ∧ page.nextCursor = none ∧ rows = drain.rows ++ page.items := by
  cases reply with
  | failed error => simp [receive] at received
  | aborted => simp [receive] at received
  | page page =>
      simp only [receive, absorb] at received
      split at received
      · next final =>
          cases received
          exact ⟨page, rfl, final, rfl⟩
      · split at received <;> simp at received

theorem receive_ended_error {error : StoreError}
    (received : drain.receive reply = .ended (.error error)) :
    reply = .failed error ∨ ∃ page cursor, reply = .page page ∧ page.nextCursor = some cursor ∧
      drain.query.cursor = some cursor ∧ error = repeatedCursor drain.query.location := by
  cases reply with
  | aborted => simp [receive] at received
  | failed reason =>
      cases received
      exact .inl rfl
  | page page =>
      simp only [receive, absorb] at received
      split at received
      · cases received
      · next cursor handed =>
          split at received
          · next sent =>
              cases received
              exact .inr ⟨page, cursor, rfl, handed, sent, rfl⟩
          · cases received

end Drain

/-- The reply that ends a drain is the last call of its query. -/
theorem Draining.ended {query : StoreQuery} {calls : List Exchange} {drain : Drain}
    {reply : StoreReply} {result : Except StoreError (List Value)}
    (soFar : Draining query calls drain) (fresh : query.cursor = none)
    (received : drain.receive reply = .ended result) :
    Ended query (calls ++ [⟨drain.query, reply⟩]) result := by
  cases result with
  | ok rows =>
      obtain ⟨page, rfl, final, rfl⟩ := Drain.receive_ended_ok received
      have begun : { query with cursor := none } = query := by rw [← fresh]
      have drained := soFar.drained (.last final)
      rw [begun] at drained
      exact .rows drained
  | error error =>
      rcases Drain.receive_ended_error received with rfl | ⟨page, cursor, rfl, handed, sent, rfl⟩
      · exact .failed soFar
      · rw [Drain.repeatedCursor, soFar.location_eq]
        exact .repeated soFar sent handed

end DocGraph
