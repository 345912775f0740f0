import DocGraph.Proofs.Loader.Windows

/-!
# In whose context a load is served

The key of a batch holds the name of the context and not its data, and the query is
made in the context of the load that opened the bucket. So a load is served in a
context of its own name, and with the data of whoever came first: the two contexts
agree when loads with one name of a context carry the same data.
-/

namespace DocGraph

open Json

namespace LoaderRun

/-- Every load is served in its own context. -/
def InOwnContext (run : LoaderRun) : Prop :=
  ∀ caller ∈ run.callers, ∀ ticket, caller.receipt = .waiting ticket →
    ∀ call ∈ run.callsFor ticket, call.exchange.query.context = caller.context

theorem opener (batchSize : Nat) (events : List LoaderEvent) :
    ∀ bucket ∈ (of batchSize events).buckets, ∃ opener,
      bucket.waiters.head? = some opener ∧ bucket.context = opener.context := by
  refine bucket_induction (fun waiter _ => ⟨waiter, rfl, rfl⟩) ?_ events
  rintro bucket waiter ⟨opener, first, context⟩ _ _
  refine ⟨opener, ?_, context⟩
  simp [Bucket.join, first]

theorem context_of_call {batchSize : Nat} {events : List LoaderEvent} {caller : Caller}
    {ticket : Nat} {call : StoreCall} (arrived : caller ∈ (of batchSize events).callers)
    (receipt : caller.receipt = .waiting ticket)
    (called : call ∈ (of batchSize events).callsFor ticket) :
    ⟨ticket, caller.context, caller.request⟩ ∈ call.flight.bucket.waiters ∧
    ∃ opener ∈ (of batchSize events).accepted,
      call.flight.bucket.waiters.head? = some opener ∧
      opener.key = caller.request.key caller.context ∧
      call.exchange.query.context = opener.context := by
  obtain ⟨made, carried⟩ := List.mem_filter.mp called
  have flown : call.flight ∈ (of batchSize events).flown := mem_flown.mpr (.inr ⟨call, made, rfl⟩)
  have member := mem_buckets_of_mem_flown flown
  have accepted := accepted_of_mem_bucket batchSize events _ member
  have merged := merged batchSize events _ member
  obtain ⟨opener, first, context⟩ := opener batchSize events _ member
  have opened : opener ∈ call.flight.bucket.waiters := List.mem_of_mem_head? first
  obtain ⟨waiter, joined, same⟩ := List.any_eq_true.mp carried
  obtain rfl : waiter = ⟨ticket, caller.context, caller.request⟩ :=
    (accounted batchSize events).eq_of_ticket_eq (accepted waiter joined)
      (mem_accepted_of_receipt arrived receipt) (beq_iff_eq.mp same)
  refine ⟨joined, opener, accepted opener opened, first, ?_, ?_⟩
  · rw [merged.key opener opened, ← merged.key _ joined]
    rfl
  · rw [StoreCall.exchange, query_eq batchSize events _ flown]
    exact context

/-- Loads are served in contexts of their own names, and all of them in their own contexts
exactly when the loads that share a query carry the same data. -/
theorem inOwnContext_iff (batchSize : Nat) (events : List LoaderEvent) :
    let run := of batchSize events
    (∀ caller ∈ run.callers, ∀ ticket, caller.receipt = .waiting ticket →
      ∀ call ∈ run.callsFor ticket, call.exchange.query.context.id = caller.context.id ∧
        ∃ opener ∈ run.accepted, call.flight.bucket.waiters.head? = some opener ∧
          opener.key = caller.request.key caller.context ∧
          call.exchange.query.context = opener.context) ∧
    (run.InOwnContext ↔ ∀ call ∈ run.calls, ∀ left ∈ call.flight.bucket.waiters,
      ∀ right ∈ call.flight.bucket.waiters, left.context.data = right.context.data) := by
  intro run
  refine ⟨?_, ?_, ?_⟩
  · intro caller arrived ticket receipt call called
    obtain ⟨_, opener, accepted, first, sameKey, context⟩ := context_of_call arrived receipt called
    refine ⟨?_, opener, accepted, first, sameKey, context⟩
    rw [context]
    exact congrArg BatchKey.contextId sameKey
  · intro own call made
    have inData : ∀ waiter ∈ call.flight.bucket.waiters,
        waiter.context.data = call.exchange.query.context.data := by
      intro waiter joined
      have member : call.flight.bucket ∈ run.buckets :=
        mem_buckets.mpr (.inr (.inr ⟨call, made, rfl⟩))
      have accepted := accepted_of_mem_bucket batchSize events _ member waiter joined
      obtain ⟨caller, arrived, receipt, context, _⟩ := caller_of_mem_accepted accepted
      have called : call ∈ run.callsFor waiter.ticket :=
        List.mem_filter.mpr ⟨made, List.any_eq_true.mpr ⟨waiter, joined, beq_self_eq_true _⟩⟩
      rw [own caller arrived _ receipt call called, context]
    intro left joinedLeft right joinedRight
    rw [inData left joinedLeft, inData right joinedRight]
  · intro alike caller arrived ticket receipt call called
    obtain ⟨joined, opener, _, first, sameKey, context⟩ := context_of_call arrived receipt called
    have made : call ∈ run.calls := (List.mem_filter.mp called).1
    have sameData := alike call made opener (List.mem_of_mem_head? first) _ joined
    have sameName : opener.context.id = caller.context.id := congrArg BatchKey.contextId sameKey
    rw [context]
    exact RequestContext.ext sameName sameData

namespace SharedName

def place : Location := ⟨"db", "Docs"⟩

def request (id : String) : LoadRequest := ⟨"Doc", place, ["owner"], [id]⟩

def alice : RequestContext := ⟨"req", .string "alice"⟩

def bob : RequestContext := ⟨"req", .string "bob"⟩

def document (id owner : String) : Value :=
  .object [("id", .string id), ("owner", .string owner)]

def events : List LoaderEvent := [
  .load alice (request "1"),
  .load bob (request "2"),
  .fire,
  .reply 0 (.page ⟨[document "1" "alice", document "2" "bob"], none⟩)]

/-- The second load gets rows that were asked for with the data of the first. -/
theorem not_inOwnContext :
    (of 2 events).replyOf ⟨bob, request "2", .waiting 1⟩ =
      some (.ok [some (document "2" "bob")]) ∧
    (∃ call, (of 2 events).callsFor 1 = [call] ∧ call.exchange.query.context = alice) ∧
    ¬(of 2 events).InOwnContext := by
  refine ⟨rfl, ⟨_, rfl, rfl⟩, ?_⟩
  intro own
  have same : alice = bob :=
    own ⟨bob, request "2", .waiting 1⟩ (.tail _ (.head _)) 1 rfl _ (.head _)
  simp [alice, bob] at same

end SharedName

end LoaderRun

end DocGraph
