import DocGraph.Store.Drain

/-!
# What a store sees of a drained query

The calls of a drained query form a trail: the first one has no cursor, and each other one has
the cursor that the reply to the call before it handed out. The reply to the last call decides
how the query ends. Only a page without a next cursor yields rows, those of the whole trail.
-/

namespace DocGraph

open Json

namespace Store

/-- The calls that a query has made after a history, the pages that came back, and the cursor
that the last of them handed out. -/
inductive Trail (store : Store) (query : StoreQuery) (history : History) :
    List StoreQuery → List StorePage → Option String → Prop
  | start : Trail store query history [] [] none
  | more {calls : List StoreQuery} {pages : List StorePage} {cursor : Option String}
      {page : StorePage} {next : String} (soFar : Trail store query history calls pages cursor)
      (replied : store (history ++ calls) { query with cursor } = .page page)
      (goesOn : page.nextCursor = some next) (fresh : cursor ≠ some next) :
      Trail store query history (calls ++ [{ query with cursor }]) (pages ++ [page]) (some next)

end Store

/-- How a query ends when a call with a cursor, made after some pages, gets a reply. -/
inductive StoreReply.Concludes (location : Location) (pages : List StorePage)
    (cursor : Option String) : StoreReply → Outcome (Except StoreError (List Value)) → Prop
  | last {page : StorePage} (final : page.nextCursor = none) :
      Concludes location pages cursor (.page page)
        (.finished (.ok ((pages ++ [page]).flatMap (·.items))))
  | repeated {page : StorePage} {next : String} (handed : page.nextCursor = some next)
      (same : cursor = some next) :
      Concludes location pages cursor (.page page)
        (.finished (.error (Drain.repeatedCursor location)))
  | failed (error : StoreError) :
      Concludes location pages cursor (.failed error) (.finished (.error error))
  | aborted : Concludes location pages cursor .aborted .aborted

/-- A reply ends the query unless it is a page with a cursor other than that of the call. -/
theorem StoreReply.concludes_or_goesOn (reply : StoreReply) (location : Location)
    (pages : List StorePage) (cursor : Option String) :
    (∃ outcome, reply.Concludes location pages cursor outcome) ∨
      ∃ page next, reply = .page page ∧ page.nextCursor = some next ∧ cursor ≠ some next := by
  cases reply with
  | failed error => exact .inl ⟨_, .failed error⟩
  | aborted => exact .inl ⟨_, .aborted⟩
  | page page =>
      cases handed : page.nextCursor with
      | none => exact .inl ⟨_, .last handed⟩
      | some next =>
          by_cases same : cursor = some next
          · exact .inl ⟨_, .repeated handed same⟩
          · exact .inr ⟨page, next, rfl, handed, same⟩

theorem StoreReply.Concludes.ne_unfinished {reply : StoreReply} {location : Location}
    {pages : List StorePage} {cursor : Option String}
    {outcome : Outcome (Except StoreError (List Value))}
    (concludes : reply.Concludes location pages cursor outcome) : outcome ≠ .unfinished := by
  cases concludes <;> exact nofun

namespace Store

variable {store : Store} {query : StoreQuery} {history : History} {calls : List StoreQuery}
  {pages : List StorePage} {cursor : Option String}

theorem drain_of_goesOn {drain : Drain} {page : StorePage} {next : String}
    (replied : store history drain.query = .page page) (goesOn : page.nextCursor = some next)
    (fresh : drain.query.cursor ≠ some next) (patience : Nat) :
    store.drain (patience + 1) drain history =
      store.drain patience ⟨{ drain.query with cursor := some next }, drain.rows ++ page.items⟩
        (history ++ [drain.query]) := by
  simp only [Store.drain, Drain.receive, replied, Drain.absorb, goesOn, if_neg fresh]

/-- The drain of a query stands at the end of each of its trails. -/
theorem Trail.drain_add (trail : store.Trail query history calls pages cursor) (more : Nat) :
    store.drain (calls.length + more) (.start query) history =
      store.drain more ⟨{ query with cursor }, pages.flatMap (·.items)⟩ (history ++ calls) := by
  induction trail generalizing more with
  | start => simp [Drain.start]
  | @more calls pages cursor page next _ replied goesOn fresh ih =>
      have counted : (calls ++ [{ query with cursor }]).length + more =
          calls.length + (more + 1) := by
        simp only [List.length_append, List.length_singleton]
        omega
      rw [counted, ih (more + 1), drain_of_goesOn replied goesOn fresh, List.flatMap_append,
        List.flatMap_singleton, List.append_assoc]

/-- A reply that ends the query ends its drain in the same way. -/
theorem Trail.drain_of_concludes {outcome : Outcome (Except StoreError (List Value))}
    (trail : store.Trail query history calls pages cursor)
    (concludes : (store (history ++ calls) { query with cursor }).Concludes query.location pages
      cursor outcome) {patience : Nat} (enough : calls.length < patience) :
    store.drain patience (.start query) history =
      (outcome, history ++ calls ++ [{ query with cursor }]) := by
  obtain ⟨more, rfl⟩ : ∃ more, patience = calls.length + (more + 1) :=
    ⟨patience - calls.length - 1, by omega⟩
  rw [trail.drain_add, drain]
  dsimp only
  generalize store (history ++ calls) { query with cursor } = reply at concludes ⊢
  cases concludes with
  | last final => simp [Drain.receive, Drain.absorb, final]
  | repeated handed same => simp [Drain.receive, Drain.absorb, handed, same]
  | failed error => rfl
  | aborted => rfl

/-- With any patience, a trail leads to a call that ends the query or uses the patience up. -/
theorem exists_trail (store : Store) (query : StoreQuery) (history : History) (patience : Nat) :
    ∃ calls pages cursor, store.Trail query history calls pages cursor ∧
      (calls.length = patience ∨ calls.length < patience ∧ ∃ outcome,
        (store (history ++ calls) { query with cursor }).Concludes query.location pages cursor
          outcome) := by
  induction patience with
  | zero => exact ⟨[], [], none, .start, .inl rfl⟩
  | succ patience ih =>
      obtain ⟨calls, pages, cursor, trail, rfl | ⟨shorter, ends⟩⟩ := ih
      · rcases (store (history ++ calls) { query with cursor }).concludes_or_goesOn
          query.location pages cursor with ends | ⟨page, next, replied, goesOn, fresh⟩
        · exact ⟨calls, pages, cursor, trail, .inr ⟨by omega, ends⟩⟩
        · exact ⟨_, _, _, trail.more replied goesOn fresh, .inl (by simp)⟩
      · exact ⟨calls, pages, cursor, trail, .inr ⟨by omega, ends⟩⟩

/-- The calls of a trail and the call after them are the query with the cursors that the pages
handed out. -/
theorem Trail.calls_append (trail : store.Trail query history calls pages cursor) :
    calls ++ [{ query with cursor }] =
      (none :: pages.map (·.nextCursor)).map ({ query with cursor := · }) := by
  induction trail with
  | start => rfl
  | more _ _ goesOn _ ih => rw [ih]; simp [goesOn]

/-- A drain is the chain of the replies to its calls: it ends with the rows of all pages where
the chain reaches the last page, with the error of the first reply that is none or that hands
its own cursor back, and not before. -/
theorem drain_follows_trail (store : Store) (query : StoreQuery) (history after : History)
    (patience : Nat) (outcome : Outcome (Except StoreError (List Value))) :
    store.drain patience (.start query) history = (outcome, after) ↔
      ∃ calls pages cursor, store.Trail query history calls pages cursor ∧
        (calls.length < patience ∧
            (store (history ++ calls) { query with cursor }).Concludes query.location pages cursor
              outcome ∧
            after = history ++ (none :: pages.map (·.nextCursor)).map ({ query with cursor := · }) ∨
          calls.length = patience ∧ outcome = .unfinished ∧ after = history ++ calls) := by
  constructor
  · intro drained
    obtain ⟨calls, pages, cursor, trail, rfl | ⟨shorter, ending, concludes⟩⟩ :=
      exists_trail store query history patience
    · have stopped := trail.drain_add 0
      rw [Nat.add_zero, drained, drain] at stopped
      exact ⟨calls, pages, cursor, trail, .inr ⟨rfl, Prod.mk.inj stopped⟩⟩
    · have ended := trail.drain_of_concludes concludes shorter
      obtain ⟨rfl, rfl⟩ := Prod.mk.inj (drained.symm.trans ended)
      refine ⟨calls, pages, cursor, trail, .inl ⟨shorter, concludes, ?_⟩⟩
      rw [List.append_assoc, trail.calls_append]
  · rintro ⟨calls, pages, cursor, trail, ⟨shorter, concludes, rfl⟩ | ⟨rfl, rfl, rfl⟩⟩
    · rw [trail.drain_of_concludes concludes shorter, List.append_assoc, trail.calls_append]
    · simpa [drain] using trail.drain_add 0

end Store

end DocGraph
