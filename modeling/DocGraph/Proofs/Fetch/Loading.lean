import DocGraph.Proofs.Fetch.Progress
import DocGraph.Proofs.Store.Answering

namespace DocGraph

open Json

theorem Documents.rowOf?_eq_none {documents : Documents} {location : Location}
    {columns : List String} {id : String}
    (absent : ∀ document ∈ documents location, Record.idOf? document ≠ some id) :
    documents.rowOf? location columns id = none := by
  rw [rowOf?, Option.map_eq_none_iff, List.find?_eq_none]
  exact fun document member => by simpa using absent document member

namespace LoadRequest

variable {documents : Documents} {batchSize : Nat} {request : LoadRequest} {reply : LoadReply}

/-- The columns that every row for a load has. -/
def wanted (request : LoadRequest) : List String := Column.projected request.columns

/-- Each id gets the columns of the document with that id, or nothing if there is none. -/
def Reads (request : LoadRequest) (documents : Documents) (values : List (Option Value)) : Prop :=
  List.Forall₂ (fun id value => Batch.AgreeOn request.wanted
    (documents.rowOf? request.location request.wanted id) value) request.ids values

theorem FoundFrom.reads (found : request.FoundFrom documents reply)
    (unique : documents.IdsUnique) :
    ∃ values, reply = .ok values ∧ request.Reads documents values := by
  cases found with
  | @rows batch rows location ids columns found =>
      refine ⟨_, rfl, ?_⟩
      rw [Reads, Batch.rowsFor, List.forall₂_map_right_iff, List.forall₂_same]
      intro id asked
      by_cases present : ∃ document ∈ documents request.location, Record.idOf? document = some id
      · obtain ⟨document, member, carries⟩ := present
        obtain ⟨row, sought, rowOf⟩ :=
          found.row?_of_mem unique (ids id asked) (location ▸ member) carries
        rw [sought, (Documents.rowOf?_eq_some unique).mpr ⟨document, member, carries, rfl⟩]
        refine .rows fun column inside => ?_
        have projected : column ∈ Column.projected batch.columns.names :=
          Column.mem_projected.mpr ((Column.mem_projected.mp inside).imp_right (columns column))
        rw [Value.get?_cutTo _ _ inside, rowOf column projected]
      · have absent : ∀ document ∈ documents request.location,
            Record.idOf? document ≠ some id :=
          fun document member carries => present ⟨document, member, carries⟩
        have missing : Batch.row? rows id = none := by
          refine Batch.row?_eq_none_of_absent fun row member carries => ?_
          obtain ⟨document, inside, _, rowOf⟩ := found.sound row member
          exact absent document (location ▸ inside) (rowOf.idOf?_eq ▸ carries)
        rw [Documents.rowOf?_eq_none absent, missing]
        exact .missing

/-- A load that fits into a batch reads its ids from the documents. -/
theorem Fits.reads (fits : request.Fits batchSize) (unique : documents.IdsUnique)
    {context : RequestContext} (given : (documents.supply batchSize).load context request reply) :
    ∃ values, reply = .ok values ∧ request.Reads documents values := by
  rcases given with settled | found
  · cases settled with
    | empty none => exact absurd none fits.asks
    | tooMany _ exceeds => exact absurd exceeds (Nat.not_lt.mpr fits.fits)
  · exact found.reads unique

end LoadRequest

namespace Fetch

variable {α β : Type} {supply : Supply} {may : RequestContext → LoadRequest → Prop}

/-- Wherever replies lead, a fetch asks for loads only that it may ask for, and it ends as
wanted. -/
inductive OnlyLoads (supply : Supply) (may : RequestContext → LoadRequest → Prop)
    (wanted : α → Prop) : Fetch α → Prop
  | done {result : α} (held : wanted result) : OnlyLoads supply may wanted (.done result)
  | load {context : RequestContext} {request : LoadRequest} {next : LoadReply → Fetch α}
      (allowed : may context request)
      (onward : ∀ reply, supply.load context request reply →
        OnlyLoads supply may wanted (next reply)) :
      OnlyLoads supply may wanted (.load context request next)

namespace OnlyLoads

variable {wanted : α → Prop} {fetch : Fetch α}

theorem map {change : α → β} {wanted : β → Prop}
    (loads : fetch.OnlyLoads supply may fun result => wanted (change result)) :
    (fetch.map change).OnlyLoads supply may wanted := by
  induction loads with
  | done held => exact .done held
  | load allowed _ ih => exact .load allowed ih

theorem imp {others : α → Prop} (loads : fetch.OnlyLoads supply may wanted)
    (held : ∀ result, wanted result → others result) : fetch.OnlyLoads supply may others := by
  induction loads with
  | done result => exact .done (held _ result)
  | load allowed _ ih => exact .load allowed ih

theorem weaken {others : RequestContext → LoadRequest → Prop}
    (loads : fetch.OnlyLoads supply may wanted)
    (within : ∀ context request, may context request → others context request) :
    fetch.OnlyLoads supply others wanted := by
  induction loads with
  | done held => exact .done held
  | load allowed _ ih => exact .load (within _ _ allowed) ih

theorem of_leads {result : α} (loads : fetch.OnlyLoads supply may wanted)
    (led : fetch.Leads supply (.done result)) : wanted result := by
  induction loads with
  | done held =>
      cases led
      exact held
  | load _ _ ih =>
      cases led with
      | load given rest => exact ih _ given rest

end OnlyLoads

/-- A call that is made for an allowed load alone. -/
def CallFor (may : RequestContext → LoadRequest → Prop) (call : StoreQuery) : Prop :=
  ∃ context request cursor, may context request ∧
    call = { request.toBatch.query context with cursor }

variable {store : Store} {documents : Documents} {batchSize : Nat} {wanted : α → Prop}
  {fetch : Fetch α}

theorem OnlyLoads.reaches (holds : store.Holds documents)
    (loads : fetch.OnlyLoads (documents.supply batchSize) may wanted) (history : History) :
    ∃ result calls, fetch.Reaches store batchSize history (history ++ calls) (.done result) ∧
      wanted result ∧ ∀ call ∈ calls, CallFor may call := by
  induction loads generalizing history with
  | @done result held => exact ⟨result, [], by simpa using .here, held, nofun⟩
  | @load context request next allowed _ ih =>
      have atOnce : ∀ reply, request.AtOnce batchSize reply → ∃ result calls,
          (Fetch.load context request next).Reaches store batchSize history (history ++ calls)
            (.done result) ∧ wanted result ∧ ∀ call ∈ calls, CallFor may call := by
        intro reply settled
        obtain ⟨result, calls, reaches, held, made⟩ := ih reply (.inl settled) history
        exact ⟨result, calls, .atOnce settled reaches, held, made⟩
      by_cases asks : request.ids = []
      · exact atOnce _ (.empty asks)
      by_cases fits : request.distinctIds ≤ batchSize
      · obtain ⟨rows, between, drains, found⟩ := holds.finds history context request.toBatch
        obtain ⟨own, rfl, same⟩ := drains.calls
        have inBatch : ∀ {names : List String} {name : String},
            name ∈ names → name ∈ NameSet.ofList names := NameSet.mem_ofList.mpr
        have given : request.FoundFrom documents (request.replyFrom (.ok rows)) :=
          .rows rfl (fun _ => inBatch) (fun _ => inBatch) found
        obtain ⟨result, calls, reaches, held, made⟩ := ih _ (.inr given) (history ++ own)
        refine ⟨result, own ++ calls, ?_, held, fun call member => ?_⟩
        · rw [← List.append_assoc]
          exact .loaded asks fits drains reaches
        · rcases List.mem_append.mp member with inside | later
          · obtain ⟨cursor, rfl⟩ := same call inside
            exact ⟨context, request, cursor, allowed, rfl⟩
          · exact made call later
      · exact atOnce _ (.tooMany asks (by omega))

/-- A fetch asks for allowed loads only, and it ends as wanted: as the only job of a session, with
calls for such loads and no others, and among any jobs of any session. -/
structure Settles (fetch : Fetch α) (store : Store) (documents : Documents)
    (settings : LoaderSettings) (may : RequestContext → LoadRequest → Prop) (wanted : α → Prop) :
    Prop where
  loads : fetch.OnlyLoads (documents.supply settings.batchSize) may wanted
  alone : ∀ session : Session, session.Rests settings.batchSize → ∃ result calls,
    fetch.Ends store settings session result calls ∧ wanted result ∧
    ∀ call ∈ calls, CallFor may call
  company : ∀ (session : Session) (jobs : List (Job α)) (place delay : Nat),
    session.Reached store settings → jobs[place]? = some ⟨delay, fetch⟩ →
    ∃ enough results after result, (∀ patience, enough ≤ patience →
        session.run store settings patience jobs = (.finished results, after)) ∧
      results[place]? = some result ∧ wanted result

theorem OnlyLoads.settles {settings : LoaderSettings} (holds : store.Holds documents)
    (loads : fetch.OnlyLoads (documents.supply settings.batchSize) may wanted) :
    fetch.Settles store documents settings may wanted where
  loads
  alone session rests := by
    obtain ⟨result, calls, reaches, held, made⟩ := loads.reaches holds session.history
    exact ⟨result, calls, reaches.ends rests, held, made⟩
  company session jobs place delay reached here := by
    obtain ⟨enough, results, after, runs, leads⟩ := reached.run_of_holds holds jobs
    obtain ⟨result, came, led⟩ := Session.exists_result leads here
    exact ⟨enough, results, after, result, runs, came, loads.of_leads led⟩

end Fetch

end DocGraph
