import DocGraph.Fetch.Basic
import DocGraph.Proofs.Loader.Completion

/-!
# What a fetch may get

A supply says which replies the requests of a fetch may get. The supply of a store is what
the store answered in a history: its own pages, the rows of the queries that it was drained
of, and the rows of batches that ask for all that a load asks for. It only grows with the
history.
-/

namespace DocGraph

open Json

/-- Which replies are possible. -/
structure Supply where
  page : StoreQuery → Except StoreError StorePage → Prop
  rows : StoreQuery → Except StoreError (List Value) → Prop
  load : RequestContext → LoadRequest → LoadReply → Prop

namespace Supply

structure Within (supply larger : Supply) : Prop where
  page : ∀ {asked reply}, supply.page asked reply → larger.page asked reply
  rows : ∀ {asked reply}, supply.rows asked reply → larger.rows asked reply
  load : ∀ {context request reply}, supply.load context request reply →
    larger.load context request reply

theorem Within.refl (supply : Supply) : supply.Within supply := ⟨id, id, id⟩

/-- No load is refused that a batch takes. -/
def TakesLoads (supply : Supply) (batchSize : Nat) : Prop :=
  ∀ context (request : LoadRequest) requested limit,
    supply.load context request (.error (.tooManyIds requested limit)) →
      batchSize < request.distinctIds

end Supply

namespace Fetch

variable {α β : Type} {supply larger : Supply}

/-- Possible replies lead from a fetch to a later one. -/
inductive Leads (supply : Supply) : Fetch α → Fetch α → Prop
  | here {fetch : Fetch α} : Leads supply fetch fetch
  | query {asked : StoreQuery} {next : Except StoreError StorePage → Fetch α}
      {reply : Except StoreError StorePage} {fetch : Fetch α} (given : supply.page asked reply)
      (rest : Leads supply (next reply) fetch) : Leads supply (query asked next) fetch
  | drain {asked : StoreQuery} {next : Except StoreError (List Value) → Fetch α}
      {reply : Except StoreError (List Value)} {fetch : Fetch α} (given : supply.rows asked reply)
      (rest : Leads supply (next reply) fetch) : Leads supply (drain asked next) fetch
  | load {context : RequestContext} {request : LoadRequest} {next : LoadReply → Fetch α}
      {reply : LoadReply} {fetch : Fetch α} (given : supply.load context request reply)
      (rest : Leads supply (next reply) fetch) : Leads supply (load context request next) fetch

namespace Leads

theorem trans {first second third : Fetch α} (front : first.Leads supply second)
    (back : second.Leads supply third) : first.Leads supply third := by
  induction front with
  | here => exact back
  | query given _ ih => exact .query given (ih back)
  | drain given _ ih => exact .drain given (ih back)
  | load given _ ih => exact .load given (ih back)

theorem mono {first second : Fetch α} (leads : first.Leads supply second)
    (within : supply.Within larger) : first.Leads larger second := by
  induction leads with
  | here => exact .here
  | query given _ ih => exact .query (within.page given) ih
  | drain given _ ih => exact .drain (within.rows given) ih
  | load given _ ih => exact .load (within.load given) ih

end Leads

/-- Wherever possible replies lead a fetch to an end, its result has a property. -/
def Yields (supply : Supply) (holds : α → Prop) (fetch : Fetch α) : Prop :=
  ∀ result, fetch.Leads supply (.done result) → holds result

namespace Yields

variable {holds : α → Prop}

theorem done {result : α} (held : holds result) : (Fetch.done result).Yields supply holds := by
  intro other leads
  cases leads
  exact held

theorem query {asked : StoreQuery} {next : Except StoreError StorePage → Fetch α}
    (onward : ∀ reply, supply.page asked reply → (next reply).Yields supply holds) :
    (Fetch.query asked next).Yields supply holds := by
  intro result leads
  cases leads with
  | query given rest => exact onward _ given result rest

theorem drain {asked : StoreQuery} {next : Except StoreError (List Value) → Fetch α}
    (onward : ∀ reply, supply.rows asked reply → (next reply).Yields supply holds) :
    (Fetch.drain asked next).Yields supply holds := by
  intro result leads
  cases leads with
  | drain given rest => exact onward _ given result rest

theorem load {context : RequestContext} {request : LoadRequest} {next : LoadReply → Fetch α}
    (onward : ∀ reply, supply.load context request reply → (next reply).Yields supply holds) :
    (Fetch.load context request next).Yields supply holds := by
  intro result leads
  cases leads with
  | load given rest => exact onward _ given result rest

theorem map {change : α → β} {holds : β → Prop} {fetch : Fetch α}
    (yields : fetch.Yields supply fun result => holds (change result)) :
    (fetch.map change).Yields supply holds := by
  induction fetch with
  | done result => exact .done (yields result .here)
  | query asked next ih =>
      exact .query fun reply given => ih reply fun result rest => yields result (.query given rest)
  | drain asked next ih =>
      exact .drain fun reply given => ih reply fun result rest => yields result (.drain given rest)
  | load context request next ih =>
      exact .load fun reply given => ih reply fun result rest => yields result (.load given rest)

end Yields

end Fetch

namespace Store

variable {store : Store} {history later : History}

/-- A call was made in a history, and this is what came back. -/
def Made (store : Store) (history : History) (call : Exchange) : Prop :=
  ∃ earlier, earlier ++ [call.query] <+: history ∧ store earlier call.query = call.reply

/-- A row came with a page that a query got. -/
def Returned (store : Store) (history : History) (query : StoreQuery) (row : Value) : Prop :=
  ∃ page, store.Made history ⟨query, .page page⟩ ∧ row ∈ page.items

/-- A row came with a page of a query, at whatever cursor. -/
def Handed (store : Store) (history : History) (query : StoreQuery) (row : Value) : Prop :=
  ∃ cursor, store.Returned history { query with cursor } row

theorem made_now (history : History) {query : StoreQuery} {reply : StoreReply}
    (replied : store history query = reply) : store.Made (history ++ [query]) ⟨query, reply⟩ :=
  ⟨history, List.prefix_refl _, replied⟩

theorem Made.mono {call : Exchange} (made : store.Made history call) (grown : history <+: later) :
    store.Made later call := by
  obtain ⟨earlier, inside, replied⟩ := made
  exact ⟨earlier, inside.trans grown, replied⟩

theorem Returned.mono {query : StoreQuery} {row : Value}
    (returned : store.Returned history query row) (grown : history <+: later) :
    store.Returned later query row := by
  obtain ⟨page, made, member⟩ := returned
  exact ⟨page, made.mono grown, member⟩

theorem Handed.mono {query : StoreQuery} {row : Value} (handed : store.Handed history query row)
    (grown : history <+: later) : store.Handed later query row := by
  obtain ⟨cursor, returned⟩ := handed
  exact ⟨cursor, returned.mono grown⟩

/-- The rows of a drained query came with its pages. -/
theorem handed_of_drained {query : StoreQuery} {calls : List Exchange} {rows : List Value}
    (drained : Drained query calls rows) (made : ∀ call ∈ calls, store.Made history call) :
    ∀ row ∈ rows, store.Handed history query row := by
  induction drained with
  | last _ =>
      exact fun row member => ⟨_, _, made _ List.mem_cons_self, member⟩
  | more _ _ ih =>
      intro row member
      rcases List.mem_append.mp member with here | later
      · exact ⟨_, _, made _ List.mem_cons_self, here⟩
      · exact ih (fun call member => made call (.tail _ member)) row later

theorem drain_grows (store : Store) (calls : Nat) (drain : Drain) (history : History) :
    history <+: (store.drain calls drain history).2 := by
  induction calls generalizing drain history with
  | zero => exact List.prefix_refl _
  | succ calls ih =>
      simp only [Store.drain]
      cases drain.receive (store history drain.query) with
      | more next => exact (List.prefix_append _ _).trans (ih next _)
      | ended result => exact List.prefix_append _ _
      | aborted => exact List.prefix_append _ _

/-- All rows of a drain came with pages of its query. -/
theorem handed_of_drain {calls : Nat} {query : StoreQuery} {drain : Drain} {rows : List Value}
    (drained : store.drain calls drain history = (.finished (.ok rows), later))
    (asks : ∃ cursor, drain.query = { query with cursor })
    (soFar : ∀ row ∈ drain.rows, store.Handed history query row) :
    ∀ row ∈ rows, store.Handed later query row := by
  induction calls generalizing drain history with
  | zero => cases drained
  | succ calls ih =>
      obtain ⟨cursor, asks⟩ := asks
      have fresh : ∀ page, store history drain.query = .page page →
          ∀ row ∈ drain.rows ++ page.items,
          store.Handed (history ++ [drain.query]) query row := by
        intro page replied row member
        rcases List.mem_append.mp member with old | new
        · exact (soFar row old).mono (List.prefix_append _ _)
        · exact ⟨cursor, page, asks ▸ made_now history replied, new⟩
      simp only [Store.drain] at drained
      cases received : drain.receive (store history drain.query) with
      | more next =>
          simp only [received] at drained
          obtain ⟨page, onward, replied, _, _, rfl⟩ := Drain.receive_more received
          exact ih drained ⟨some onward, by rw [asks]⟩ (fresh page replied)
      | ended result =>
          simp only [received] at drained
          cases drained
          obtain ⟨page, replied, _, rfl⟩ := Drain.receive_ended_ok received
          exact fresh page replied
      | aborted =>
          simp only [received] at drained
          cases drained

end Store

/-- What a loader answers to a load that it took in: the rows that a batch for all of the load
got, in the name of the same context, or why there are none. -/
inductive LoadRequest.Answered (request : LoadRequest) (store : Store) (history : History)
    (context : RequestContext) : LoadReply → Prop
  | rows {batch : Batch} {asker : RequestContext} {rows : List Value}
      (name : asker.id = context.id) (location : batch.location = request.location)
      (columns : ∀ column ∈ request.columns, column ∈ batch.columns)
      (handed : ∀ row ∈ rows, store.Handed history (batch.query asker) row) :
      Answered request store history context (.ok (Batch.rowsFor rows request.ids))
  | failed (error : StoreError) : Answered request store history context (.error (.store error))
  | dropped : Answered request store history context (.error .dropped)

theorem LoadRequest.Answered.mono {request : LoadRequest} {store : Store}
    {history later : History} {context : RequestContext} {reply : LoadReply}
    (answered : request.Answered store history context reply) (grown : history <+: later) :
    request.Answered store later context reply := by
  cases answered with
  | rows name location columns handed =>
      exact .rows name location columns fun row member => (handed row member).mono grown
  | failed error => exact .failed error
  | dropped => exact .dropped

namespace Store

/-- What a store gives, with a loader in front of it, to requests that are answered in a
history. -/
def supply (store : Store) (batchSize : Nat) (history : History) : Supply where
  page asked reply := ∀ page, reply = .ok page → store.Made history ⟨asked, .page page⟩
  rows asked reply := ∀ rows, reply = .ok rows → ∀ row ∈ rows, store.Handed history asked row
  load context request reply :=
    request.AtOnce batchSize reply ∨ request.Answered store history context reply

variable {store : Store} {batchSize : Nat} {history later : History}

theorem supply_within (grown : history <+: later) :
    (store.supply batchSize history).Within (store.supply batchSize later) where
  page given page same := (given page same).mono grown
  rows given rows same row member := (given rows same row member).mono grown
  load given := given.imp_right fun answered => answered.mono grown

theorem supply_takesLoads (store : Store) (batchSize : Nat) (history : History) :
    (store.supply batchSize history).TakesLoads batchSize := by
  intro context request requested limit given
  rcases given with settled | answered
  · cases settled with
    | tooMany _ exceeds => exact exceeds
  · cases answered

end Store

end DocGraph
