import DocGraph.Fetch.Basic

namespace DocGraph

open Json

/-- The answers of a store and of a loader. -/
structure Replies where
  page : StoreQuery → Except StoreError StorePage
  rows : StoreQuery → Except StoreError (List Value)
  load : RequestContext → LoadRequest → LoadReply

namespace Fetch

variable {α β : Type} (replies : Replies)

def result : Fetch α → α
  | done result => result
  | query asked next => result (next (replies.page asked))
  | drain asked next => result (next (replies.rows asked))
  | load context request next => result (next (replies.load context request))

/-- The queries that a fetch makes itself; those of the loader are not among them. -/
def queries : Fetch α → List StoreQuery
  | done _ => []
  | query asked next => asked :: queries (next (replies.page asked))
  | drain asked next => asked :: queries (next (replies.rows asked))
  | load context request next => queries (next (replies.load context request))

theorem result_bind (after : α → Fetch β) (fetch : Fetch α) :
    (fetch.bind after).result replies = (after (fetch.result replies)).result replies := by
  induction fetch with
  | done _ => rfl
  | query asked _ ih => exact ih (replies.page asked)
  | drain asked _ ih => exact ih (replies.rows asked)
  | load context request _ ih => exact ih (replies.load context request)

theorem queries_bind (after : α → Fetch β) (fetch : Fetch α) :
    (fetch.bind after).queries replies =
      fetch.queries replies ++ (after (fetch.result replies)).queries replies := by
  induction fetch with
  | done _ => rfl
  | query asked _ ih => exact congrArg (asked :: ·) (ih (replies.page asked))
  | drain asked _ ih => exact congrArg (asked :: ·) (ih (replies.rows asked))
  | load context request _ ih => exact ih (replies.load context request)

@[simp] theorem result_map (change : α → β) (fetch : Fetch α) :
    (fetch.map change).result replies = change (fetch.result replies) :=
  result_bind replies _ fetch

@[simp] theorem queries_map (change : α → β) (fetch : Fetch α) :
    (fetch.map change).queries replies = fetch.queries replies := by
  rw [map, queries_bind, queries, List.append_nil]

end Fetch

end DocGraph
