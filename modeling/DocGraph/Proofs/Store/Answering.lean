import DocGraph.Proofs.Query.Selecting
import DocGraph.Proofs.Store.Holding
import Mathlib.Data.List.Dedup
import Mathlib.Data.List.Perm.Subperm

namespace DocGraph

open Json

/-- A page has all rows and no cursor follows, or it has as many as the query allows. -/
inductive StorePage.Answers (rows : List Value) (limit : Option Nat) : StorePage → Prop
  | whole {items : List Value} (all : items.Perm rows) : Answers rows limit ⟨items, none⟩
  | cut {items rest : List Value} {next : Option String} {most : Nat} (bound : limit = some most)
      (full : items.length = most) (split : (items ++ rest).Perm rows) (more : rest ≠ []) :
      Answers rows limit ⟨items, next⟩

def Store.AnswersFrom (store : Store) (comparer : Comparer) (documents : Documents) : Prop :=
  ∀ history query columns condition, query.cursor = none →
    query.statement.selection? = some (columns, condition) →
    ∃ page, store history query = .page page ∧
      page.Answers (comparer.selected documents query columns condition) query.limit

/-- A store that answers every select whole. -/
noncomputable def Store.answering (comparer : Comparer) (documents : Documents) : Store :=
  fun _ query =>
    match query.statement.selection? with
    | some (columns, condition) => .page ⟨comparer.selected documents query columns condition, none⟩
    | none => .page ⟨[], none⟩

theorem Store.answersFrom_answering (comparer : Comparer) (documents : Documents) :
    (Store.answering comparer documents).AnswersFrom comparer documents := by
  intro history query columns condition _ selects
  refine ⟨_, ?_, .whole (.refl _)⟩
  simp only [answering, selects]

theorem Json.Value.cutTo_congr {columns others : List String}
    (same : ∀ column, column ∈ columns ↔ column ∈ others) (value : Value) :
    value.cutTo columns = value.cutTo others := by
  cases value with
  | object members =>
      have alike : ∀ member : String × Value,
          columns.contains member.1 = others.contains member.1 := by
        intro member
        rw [Bool.eq_iff_iff]
        simpa using same member.1
      simp only [cutTo, alike]
  | _ => rfl

namespace Documents

variable {documents : Documents} {location : Location} {ids columns : List String} {id : String}
  {document row : Value}

theorem mem_rowsWith : row ∈ documents.rowsWith location ids columns ↔
    ∃ document ∈ documents location, (∃ id ∈ ids, Record.idOf? document = some id) ∧
      row = document.cutTo columns := by
  simp only [rowsWith, List.mem_map, List.mem_filter, Option.any_eq_true, decide_eq_true_eq]
  constructor
  · rintro ⟨document, ⟨member, id, carries, wanted⟩, rfl⟩
    exact ⟨document, member, ⟨id, wanted, carries⟩, rfl⟩
  · rintro ⟨document, member, ⟨id, wanted, carries⟩, rfl⟩
    exact ⟨document, ⟨member, id, carries, wanted⟩, rfl⟩

theorem rowsWith_congr {others otherColumns : List String} (sameIds : ∀ id, id ∈ ids ↔ id ∈ others)
    (sameColumns : ∀ column, column ∈ columns ↔ column ∈ otherColumns) :
    documents.rowsWith location ids columns = documents.rowsWith location others otherColumns := by
  simp only [rowsWith, sameIds, Value.cutTo_congr sameColumns]

theorem idOf?_cutTo (inside : Column.id ∈ columns) (document : Value) :
    Record.idOf? (document.cutTo columns) = Record.idOf? document := by
  unfold Record.idOf?
  rw [Value.get?_cutTo columns document inside]

theorem nodup_ids_rowsWith (unique : documents.IdsUnique) (inside : Column.id ∈ columns) :
    ((documents.rowsWith location ids columns).map Record.idOf?).Nodup := by
  have apart := (unique location).filter fun document => (Record.idOf? document).any (· ∈ ids)
  rw [rowsWith, List.map_map, List.nodup_iff_pairwise_ne, List.pairwise_map]
  refine apart.imp_of_mem fun {left right} leftMember _ distinct => ?_
  obtain ⟨id, carries, _⟩ := (Option.any_eq_true _ _).mp (List.mem_filter.mp leftMember).2
  simp only [Function.comp_apply, idOf?_cutTo inside, carries]
  exact fun same => distinct id carries same.symm

theorem nodup_rowsWith (unique : documents.IdsUnique) (inside : Column.id ∈ columns) :
    (documents.rowsWith location ids columns).Nodup :=
  (nodup_ids_rowsWith unique inside).of_map

theorem length_rowsWith_le (unique : documents.IdsUnique) (inside : Column.id ∈ columns) :
    (documents.rowsWith location ids columns).length ≤ ids.length := by
  have found : (documents.rowsWith location ids columns).map Record.idOf? ⊆ ids.map some := by
    intro held member
    obtain ⟨row, inRows, rfl⟩ := List.mem_map.mp member
    obtain ⟨document, _, ⟨id, wanted, carries⟩, rfl⟩ := mem_rowsWith.mp inRows
    rw [idOf?_cutTo inside, carries]
    exact List.mem_map_of_mem wanted
  simpa using ((nodup_ids_rowsWith unique inside).subperm found).length_le

def rowOf? (documents : Documents) (location : Location) (columns : List String) (id : String) :
    Option Value :=
  ((documents location).find? (Record.idOf? · = some id)).map (·.cutTo columns)

theorem rowOf?_eq_some (unique : documents.IdsUnique) : documents.rowOf? location columns id =
    some row ↔ ∃ document ∈ documents location, Record.idOf? document = some id ∧
      row = document.cutTo columns := by
  rw [rowOf?, Option.map_eq_some_iff]
  constructor
  · rintro ⟨document, found, rfl⟩
    exact ⟨document, List.mem_of_find?_eq_some found, by simpa using List.find?_some found, rfl⟩
  · rintro ⟨document, member, carries, rfl⟩
    have some : ((documents location).find? (Record.idOf? · = some id)).isSome :=
      List.find?_isSome.mpr ⟨document, member, decide_eq_true carries⟩
    obtain ⟨other, found⟩ := Option.isSome_iff_exists.mp some
    have otherCarries : Record.idOf? other = .some id := by simpa using List.find?_some found
    have same : other = document := by
      by_contra different
      exact (unique location).forall (List.mem_of_find?_eq_some found) member different id
        otherCarries carries
    exact ⟨document, same ▸ found, rfl⟩

/-- The rows of the documents with listed ids, in the order of the list. -/
def keyedRows (documents : Documents) (location : Location) (columns ids : List String) :
    List Value :=
  ids.filterMap (documents.rowOf? location columns)

theorem mem_keyedRows (unique : documents.IdsUnique) :
    row ∈ documents.keyedRows location columns ids ↔
      row ∈ documents.rowsWith location ids columns := by
  rw [keyedRows, List.mem_filterMap, mem_rowsWith]
  simp only [rowOf?_eq_some unique]
  constructor
  · rintro ⟨id, wanted, document, member, carries, rfl⟩
    exact ⟨document, member, ⟨id, wanted, carries⟩, rfl⟩
  · rintro ⟨document, member, ⟨id, wanted, carries⟩, rfl⟩
    exact ⟨id, wanted, document, member, carries, rfl⟩

/-- Selecting by ids finds what the ids name, but each document once. -/
theorem rowsWith_perm_dedup (unique : documents.IdsUnique) (inside : Column.id ∈ columns) :
    (documents.rowsWith location ids columns).Perm
      (documents.keyedRows location columns ids).dedup := by
  refine (List.perm_ext_iff_of_nodup (nodup_rowsWith unique inside) (List.nodup_dedup _)).mpr ?_
  intro row
  rw [List.mem_dedup, mem_keyedRows unique]

/-- No document is named by two of the ids. -/
def NamedOnce (documents : Documents) (location : Location) (ids : List String) : Prop :=
  ids.Pairwise fun left right =>
    left = right → ∀ document ∈ documents location, Record.idOf? document ≠ some left

theorem nodup_keyedRows_iff (unique : documents.IdsUnique) (inside : Column.id ∈ columns) :
    (documents.keyedRows location columns ids).Nodup ↔ documents.NamedOnce location ids := by
  rw [keyedRows, List.nodup_iff_pairwise_ne, List.pairwise_filterMap]
  constructor
  · intro distinct
    refine distinct.imp fun {left right} apart same document member carries => ?_
    have found := (@rowOf?_eq_some _ _ columns _ _ unique).mpr ⟨document, member, carries, rfl⟩
    exact apart _ found _ (same ▸ found) rfl
  · intro once
    refine once.imp fun {left right} absent row found other otherFound same => ?_
    obtain ⟨document, member, carries, rfl⟩ := (rowOf?_eq_some unique).mp found
    obtain ⟨twin, _, twinCarries, rfl⟩ := (rowOf?_eq_some unique).mp otherFound
    have sameId : some left = some right := by
      rw [← carries, ← twinCarries, ← idOf?_cutTo inside document, same, idOf?_cutTo inside]
    exact absent (Option.some.inj sameId) document member carries

/-- Rows that were found by ids are looked up by them. -/
theorem row?_eq_rowOf? (unique : documents.IdsUnique) (inside : Column.id ∈ columns)
    {rows : List Value} (all : rows.Perm (documents.rowsWith location ids columns))
    (wanted : id ∈ ids) : Batch.row? rows id = documents.rowOf? location columns id := by
  have found : ∀ row ∈ rows, Record.idOf? row = some id →
      documents.rowOf? location columns id = some row := by
    intro row member carries
    obtain ⟨document, inside', _, rfl⟩ := mem_rowsWith.mp (all.mem_iff.mp member)
    rw [idOf?_cutTo inside] at carries
    exact (rowOf?_eq_some unique).mpr ⟨document, inside', carries, rfl⟩
  cases sought : documents.rowOf? location columns id with
  | none =>
      refine Batch.row?_eq_none_of_absent fun row member carries => ?_
      rw [found row member carries] at sought
      contradiction
  | some row =>
      obtain ⟨document, member, carries, rfl⟩ := (rowOf?_eq_some unique).mp sought
      refine Batch.row?_eq_some_of_only ?_ ?_ fun other otherMember otherCarries => ?_
      · exact all.mem_iff.mpr (mem_rowsWith.mpr ⟨document, member, ⟨id, wanted, carries⟩, rfl⟩)
      · rw [idOf?_cutTo inside, carries]
      · exact Option.some.inj ((found other otherMember otherCarries).symm.trans sought)

end Documents

namespace Store.AnswersFrom

variable {store : Store} {comparer : Comparer} {documents : Documents}

/-- A batch has room for all rows that its ids name, so one page holds them. -/
theorem batch (answers : store.AnswersFrom comparer documents) (unique : documents.IdsUnique)
    (batch : Batch) (context : RequestContext) (history : History) :
    ∃ rows, store.Drains history (batch.query context) (.ok rows)
        (history ++ [batch.query context]) ∧
      rows.Perm (documents.rowsWith batch.location batch.ids.names
        (Column.projected batch.columns.names)) := by
  obtain ⟨page, replied, answered⟩ :=
    answers history (batch.query context) _ _ rfl batch.selection?_statement
  rw [batch.selected_query] at answered
  cases answered with
  | whole all => exact ⟨_, drains_of_page replied, all⟩
  | @cut items rest _ _ bound full split more =>
      have size : (items ++ rest).length ≤ batch.ids.names.length := by
        rw [split.length_eq]
        exact Documents.length_rowsWith_le unique (Column.mem_projected.mpr (.inl rfl))
      have most : batch.ids.names.length = _ := Option.some.inj bound
      rw [List.length_append, full, ← most] at size
      exact absurd (List.eq_nil_of_length_eq_zero (by omega)) more

end Store.AnswersFrom

end DocGraph
