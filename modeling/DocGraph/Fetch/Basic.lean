import DocGraph.Loader.Batch

/-!
# Fetches

A fetch is a computation that needs rows: it is done with a result, or it asks
for something and goes on with the reply. What it asks for is a single page, all
rows of a query, or columns of documents through the loader. A fetch says
nothing about when and in which company its requests are made.
-/

namespace DocGraph

open Json

inductive Fetch (α : Type) : Type where
  | done (result : α)
  | query (query : StoreQuery) (next : Except StoreError StorePage → Fetch α)
  | drain (query : StoreQuery) (next : Except StoreError (List Value) → Fetch α)
  | load (context : RequestContext) (request : LoadRequest) (next : LoadReply → Fetch α)

namespace Fetch

variable {α β : Type}

def bind (after : α → Fetch β) : Fetch α → Fetch β
  | done result => after result
  | query asked next => query asked fun reply => bind after (next reply)
  | drain asked next => drain asked fun reply => bind after (next reply)
  | load context request next => load context request fun reply => bind after (next reply)

def map (change : α → β) : Fetch α → Fetch β := bind fun result => done (change result)

def loadOne (context : RequestContext) (request : LoadRequest) :
    Fetch (Except LoadError (Option Value)) :=
  load context request fun reply => done (reply.map fun rows => rows.head?.join)

def loadAll (context : RequestContext) (request : LoadRequest) : Fetch LoadReply :=
  load context request done

end Fetch

end DocGraph
