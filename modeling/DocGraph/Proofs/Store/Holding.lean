import DocGraph.Proofs.Fetch.Alone
import DocGraph.Proofs.Loader.Documents

/-!
# Stores that hold documents

A store holds documents when its replies do not depend on what it was asked before and
batches are answered out of the documents. What a fetch asks of such a store and what it
ends with do not depend on the moment.
-/

namespace DocGraph

open Json

namespace Batch

/-- A row of a document for a batch has the document's values in the columns of the batch. -/
def RowOf (batch : Batch) (document row : Value) : Prop :=
  ∀ column ∈ Column.projected batch.columns.names, row.get? column = document.get? column

def AsksFor (batch : Batch) (document : Value) : Prop :=
  ∃ id ∈ batch.ids, Record.idOf? document = some id

/-- The rows are those of the documents that a batch asks for. -/
structure FoundIn (batch : Batch) (documents : Documents) (rows : List Value) : Prop where
  sound : ∀ row ∈ rows, ∃ document ∈ documents batch.location,
    batch.AsksFor document ∧ batch.RowOf document row
  complete : ∀ document ∈ documents batch.location, batch.AsksFor document →
    ∃ row ∈ rows, batch.RowOf document row

variable {batch : Batch} {documents : Documents} {rows : List Value} {document row : Value}

theorem RowOf.idOf?_eq (rowOf : batch.RowOf document row) :
    Record.idOf? row = Record.idOf? document := by
  unfold Record.idOf?
  rw [rowOf Column.id (Column.mem_projected.mpr (.inl rfl))]

theorem FoundIn.row?_of_mem {id : String} (found : batch.FoundIn documents rows)
    (unique : documents.IdsUnique) (asked : id ∈ batch.ids)
    (member : document ∈ documents batch.location) (carries : Record.idOf? document = some id) :
    ∃ row, row? rows id = some row ∧ batch.RowOf document row := by
  have last := row?_lastWithId rows id
  cases sought : row? rows id with
  | none =>
      rw [sought] at last
      obtain ⟨row, inside, rowOf⟩ := found.complete document member ⟨id, asked, carries⟩
      cases last with
      | missing absent => exact absurd (rowOf.idOf?_eq.trans carries) (absent row inside)
  | some row =>
      rw [sought] at last
      cases last with
      | found split rowCarries _ =>
          obtain ⟨other, otherMember, _, rowOf⟩ := found.sound row (by simp [split])
          have same : other = document := by
            by_contra different
            exact (unique batch.location).forall otherMember member different id
              (rowOf.idOf?_eq.symm.trans rowCarries) carries
          exact ⟨row, rfl, same ▸ rowOf⟩

end Batch

namespace Store

variable {store : Store} {batchSize : Nat}

/-- A reply does not depend on the queries before. -/
def Steady (store : Store) : Prop :=
  ∀ history other query, store history query = store other query

structure Holds (store : Store) (documents : Documents) : Prop where
  steady : store.Steady
  answers : ∀ history query, store history query ≠ .aborted
  ends : ∀ history query, ∃ result after, store.Drains history query result after
  finds : ∀ history context (batch : Batch), ∃ rows after,
    store.Drains history (batch.query context) (.ok rows) after ∧ batch.FoundIn documents rows

theorem Steady.drain {calls : Nat} {drain : Drain} {history made : History}
    {result : Except StoreError (List Value)} (steady : store.Steady)
    (drained : store.drain calls drain history = (.finished result, history ++ made))
    (other : History) : store.drain calls drain other = (.finished result, other ++ made) := by
  induction calls generalizing drain history made other with
  | zero => simp [Store.drain] at drained
  | succ calls ih =>
      simp only [Store.drain] at drained ⊢
      rw [steady other history]
      cases received : drain.receive (store history drain.query) with
      | more next =>
          simp only [received] at drained ⊢
          obtain ⟨later, grown, _⟩ := drain_calls drained
          obtain rfl : made = drain.query :: later := by simpa using grown
          rw [List.append_cons history drain.query later] at drained
          rw [List.append_cons other drain.query later]
          exact ih drained (other ++ [drain.query])
      | ended ended =>
          simp only [received, Prod.mk.injEq, List.append_cancel_left_eq] at drained ⊢
          exact ⟨drained.1, drained.2 ▸ rfl⟩
      | aborted => simp [received] at drained

theorem Steady.drains {history made : History} {query : StoreQuery}
    {result : Except StoreError (List Value)} (steady : store.Steady)
    (drains : store.Drains history query result (history ++ made)) (other : History) :
    store.Drains other query result (other ++ made) := by
  obtain ⟨calls, drained⟩ := drains
  exact ⟨calls, steady.drain drained other⟩

theorem Drains.calls {history after : History} {query : StoreQuery}
    {result : Except StoreError (List Value)} (drains : store.Drains history query result after) :
    ∃ made, after = history ++ made ∧ ∀ call ∈ made, ∃ cursor, call = { query with cursor } := by
  obtain ⟨calls, drained⟩ := drains
  exact drain_calls drained

end Store

namespace Fetch

variable {α : Type} {store : Store} {batchSize : Nat} {documents : Documents}

/-- Where a fetch comes to does not depend on when it begins. -/
theorem Reaches.moved {history later : History} {fetch rest : Fetch α} (steady : store.Steady)
    (reaches : fetch.Reaches store batchSize history later rest) :
    ∃ made, later = history ++ made ∧
      ∀ other, fetch.Reaches store batchSize other (other ++ made) rest := by
  induction reaches with
  | here => exact ⟨[], by simp, fun other => by simpa using .here⟩
  | @answered history _ asked _ _ _ replied _ ih =>
      obtain ⟨made, rfl, moves⟩ := ih
      refine ⟨asked :: made, by simp, fun other => ?_⟩
      rw [List.append_cons other]
      exact .answered (steady other history asked ▸ replied) (moves _)
  | @failed history _ asked _ _ _ replied _ ih =>
      obtain ⟨made, rfl, moves⟩ := ih
      refine ⟨asked :: made, by simp, fun other => ?_⟩
      rw [List.append_cons other]
      exact .failed (steady other history asked ▸ replied) (moves _)
  | drained drains _ ih =>
      obtain ⟨earlier, rfl, _⟩ := drains.calls
      obtain ⟨made, rfl, moves⟩ := ih
      refine ⟨earlier ++ made, by simp, fun other => ?_⟩
      rw [← List.append_assoc]
      exact .drained (steady.drains drains other) (moves _)
  | atOnce settled _ ih =>
      obtain ⟨made, rfl, moves⟩ := ih
      exact ⟨made, rfl, fun other => .atOnce settled (moves other)⟩
  | loaded asks fits drains _ ih =>
      obtain ⟨earlier, rfl, _⟩ := drains.calls
      obtain ⟨made, rfl, moves⟩ := ih
      refine ⟨earlier ++ made, by simp, fun other => ?_⟩
      rw [← List.append_assoc]
      exact .loaded asks fits (steady.drains drains other) (moves _)

theorem reaches_done (holds : store.Holds documents) (fetch : Fetch α) (history : History) :
    ∃ later result, fetch.Reaches store batchSize history later (.done result) := by
  induction fetch generalizing history with
  | done result => exact ⟨history, result, .here⟩
  | query asked next ih =>
      cases replied : store history asked with
      | page page =>
          obtain ⟨later, result, reaches⟩ := ih (.ok page) (history ++ [asked])
          exact ⟨later, result, .answered replied reaches⟩
      | failed error =>
          obtain ⟨later, result, reaches⟩ := ih (.error error) (history ++ [asked])
          exact ⟨later, result, .failed replied reaches⟩
      | aborted => exact absurd replied (holds.answers history asked)
  | drain asked next ih =>
      obtain ⟨rows, between, drains⟩ := holds.ends history asked
      obtain ⟨later, result, reaches⟩ := ih rows between
      exact ⟨later, result, .drained drains reaches⟩
  | load context request next ih =>
      by_cases none : request.ids = []
      · obtain ⟨later, result, reaches⟩ := ih _ history
        exact ⟨later, result, .atOnce (.empty none) reaches⟩
      · by_cases fits : request.distinctIds ≤ batchSize
        · obtain ⟨rows, between, drains⟩ := holds.ends history (request.toBatch.query context)
          obtain ⟨later, result, reaches⟩ := ih (request.replyFrom rows) between
          exact ⟨later, result, .loaded none fits drains reaches⟩
        · obtain ⟨later, result, reaches⟩ := ih _ history
          exact ⟨later, result, .atOnce (.tooMany none (by omega)) reaches⟩

end Fetch

namespace Store

/-- The documents whose ids a query lists, or all of them if it lists none. -/
def ofDocuments (documents : Documents) : Store := fun _ query =>
  match query.statement.parameter? Batch.idsParameter with
  | some (.array ids) => .page ⟨(documents query.location).filter fun document =>
      (Record.idOf? document).any fun id => .string id ∈ ids, none⟩
  | _ => .page ⟨documents query.location, none⟩

theorem ofDocuments_page (documents : Documents) (history : History) (query : StoreQuery) :
    ∃ rows, ofDocuments documents history query = .page ⟨rows, none⟩ := by
  unfold ofDocuments
  split
  · exact ⟨_, rfl⟩
  · exact ⟨_, rfl⟩

theorem ofDocuments_batch (documents : Documents) (history : History) (context : RequestContext)
    (batch : Batch) : ofDocuments documents history (batch.query context) =
      .page ⟨(documents batch.location).filter fun document =>
        (Record.idOf? document).any (· ∈ batch.ids), none⟩ := by
  have ids : (batch.query context).statement.parameter? Batch.idsParameter =
      some (.array (batch.ids.names.map .string)) := rfl
  have listed : ∀ id, Value.string id ∈ batch.ids.names.map .string ↔ id ∈ batch.ids := by
    intro id
    simp only [List.mem_map, Value.string.injEq, exists_eq_right]
    rfl
  unfold ofDocuments
  simp only [ids, listed]
  rfl

theorem drains_of_page {store : Store} {history : History} {query : StoreQuery}
    {rows : List Value} (replied : store history (Drain.start query).query = .page ⟨rows, none⟩) :
    store.Drains history query (.ok rows) (history ++ [(Drain.start query).query]) :=
  ⟨1, by simp only [Store.drain, replied]; rfl⟩

theorem holds_ofDocuments (documents : Documents) : (ofDocuments documents).Holds documents where
  steady _ _ _ := rfl
  answers history query := by
    obtain ⟨rows, page⟩ := ofDocuments_page documents history query
    simp [page]
  ends history query := by
    obtain ⟨rows, page⟩ := ofDocuments_page documents history (Drain.start query).query
    exact ⟨_, _, drains_of_page page⟩
  finds history context batch := by
    refine ⟨_, _, drains_of_page (ofDocuments_batch documents history context batch), ?_, ?_⟩
    · intro row inside
      obtain ⟨member, asked⟩ := List.mem_filter.mp inside
      obtain ⟨id, carries, wanted⟩ := (Option.any_eq_true _ _).mp asked
      exact ⟨row, member, ⟨id, of_decide_eq_true wanted, carries⟩, fun _ _ => rfl⟩
    · intro document member asked
      obtain ⟨id, wanted, carries⟩ := asked
      refine ⟨document, List.mem_filter.mpr ⟨member, ?_⟩, fun _ _ => rfl⟩
      simpa [carries] using wanted

end Store

end DocGraph
