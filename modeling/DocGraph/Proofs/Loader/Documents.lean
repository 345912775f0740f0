import DocGraph.Loader.Batch
import Mathlib.Data.List.Forall2
import Mathlib.Data.List.Pairwise

namespace DocGraph

open Json

abbrev Documents := Location → List Value

def Documents.Apart (left right : Value) : Prop :=
  ∀ id, Record.idOf? left = some id → Record.idOf? right ≠ some id

instance : Std.Symm Documents.Apart := ⟨fun _ _ apart id right left => apart id left right⟩

def Documents.IdsUnique (documents : Documents) : Prop :=
  ∀ location, (documents location).Pairwise Documents.Apart

namespace Json.Value

/-- A document without the members that are not among the columns. -/
def cutTo (columns : List String) : Value → Value
  | object members => object (members.filter fun member => columns.contains member.1)
  | other => other

theorem get?_cutTo (columns : List String) (value : Value) {column : String}
    (member : column ∈ columns) : (value.cutTo columns).get? column = value.get? column := by
  cases value with
  | object members =>
      simp only [cutTo, get?]
      induction members with
      | nil => rfl
      | cons first rest ih =>
          by_cases kept : columns.contains first.1 = true
          · simp only [List.filter_cons, kept, if_true, Keyed.find?, ih]
          · have different : column ≠ first.1 := by
              rintro rfl
              exact kept (by simpa using member)
            rw [List.filter_cons, if_neg kept, ih, Keyed.find?, if_neg different]
  | _ => rfl

end Json.Value

theorem Column.mem_projected {columns : List String} {column : String} :
    column ∈ Column.projected columns ↔ column = Column.id ∨ column ∈ columns := by
  have general : ∀ (columns seen : List String),
      column ∈ columns.foldl (fun seen column =>
        if seen.contains column then seen else seen ++ [column]) seen ↔
      column ∈ seen ∨ column ∈ columns := by
    intro columns
    induction columns with
    | nil => simp
    | cons first rest ih =>
        intro seen
        rw [List.foldl_cons, ih, List.mem_cons]
        split
        · next known =>
            have inside : first ∈ seen := by simpa using known
            grind
        · rw [List.mem_append, List.mem_singleton, or_assoc]
  simpa [Column.projected] using general columns [Column.id]

namespace Batch

/-- The result of a batch query: the documents with its ids in the order of the
container, with the projected columns. -/
def resultFrom (documents : Documents) (batch : Batch) : List Value :=
  ((documents batch.location).filter fun document =>
    (Record.idOf? document).any (· ∈ batch.ids)).map
      (·.cutTo (Column.projected batch.columns.names))

theorem idOf?_cutTo_projected (columns : List String) (document : Value) :
    Record.idOf? (document.cutTo (Column.projected columns)) = Record.idOf? document := by
  unfold Record.idOf?
  rw [Value.get?_cutTo _ _ (Column.mem_projected.mpr (.inl rfl))]

/-- The last row with an id, or none if no row has it. -/
inductive LastWithId (id : String) (rows : List Value) : Option Value → Prop
  | found {earlier later : List Value} {row : Value} (split : rows = earlier ++ row :: later)
      (carries : Record.idOf? row = some id)
      (last : ∀ other ∈ later, Record.idOf? other ≠ some id) : LastWithId id rows (some row)
  | missing (absent : ∀ row ∈ rows, Record.idOf? row ≠ some id) : LastWithId id rows none

theorem row?_lastWithId (rows : List Value) (id : String) : LastWithId id rows (row? rows id) := by
  unfold row?
  cases found : rows.reverse.find? fun row => Record.idOf? row == some id with
  | none =>
      refine .missing fun row member => ?_
      simpa using List.find?_eq_none.mp found row (List.mem_reverse.mpr member)
  | some row =>
      obtain ⟨carries, later, earlier, split, absent⟩ := List.find?_eq_some_iff_append.mp found
      have parts : rows = earlier.reverse ++ row :: later.reverse := by
        rw [← List.reverse_reverse rows, split]
        simp
      refine .found parts (beq_iff_eq.mp carries) fun other member => ?_
      simpa using absent other (List.mem_reverse.mp member)

/-- Rows in which one row only has an id. -/
theorem row?_eq_some_of_only {rows : List Value} {id : String} {row : Value}
    (member : row ∈ rows) (carries : Record.idOf? row = some id)
    (only : ∀ other ∈ rows, Record.idOf? other = some id → other = row) :
    row? rows id = some row := by
  have last := row?_lastWithId rows id
  cases found : row? rows id with
  | none =>
      rw [found] at last
      cases last with
      | missing absent => exact absurd carries (absent row member)
  | some other =>
      rw [found] at last
      cases last with
      | found split otherCarries _ => rw [only other (by simp [split]) otherCarries]

theorem row?_eq_none_of_absent {rows : List Value} {id : String}
    (absent : ∀ row ∈ rows, Record.idOf? row ≠ some id) : row? rows id = none := by
  simpa [row?] using absent

theorem LastWithId.eq_row? {rows : List Value} {id : String} {value : Option Value}
    (last : LastWithId id rows value) : value = row? rows id := by
  cases last with
  | missing absent => exact (row?_eq_none_of_absent absent).symm
  | @found earlier later row split carries last =>
      have behind : later.reverse.find? (fun row => Record.idOf? row == some id) = none := by
        simpa using last
      rw [row?, split, List.reverse_append, List.find?_append, List.reverse_cons,
        List.find?_append, behind]
      simp [carries]

theorem rowsFor_lastWithId (rows : List Value) (ids : List String) :
    List.Forall₂ (fun id => LastWithId id rows) ids (rowsFor rows ids) := by
  rw [rowsFor, List.forall₂_map_right_iff, List.forall₂_same]
  exact fun id _ => row?_lastWithId rows id

theorem eq_rowsFor_of_last {rows : List Value} {ids : List String} {values : List (Option Value)}
    (last : List.Forall₂ (fun id => LastWithId id rows) ids values) :
    values = rowsFor rows ids := by
  induction last with
  | nil => rfl
  | cons first _ ih => exact congrArg₂ List.cons first.eq_row? ih

section Fixed

variable {documents : Documents} {batch : Batch} {id : String} {document : Value}

theorem row?_resultFrom_of_mem (unique : documents.IdsUnique) (asked : id ∈ batch.ids)
    (member : document ∈ documents batch.location) (carries : Record.idOf? document = some id) :
    row? (batch.resultFrom documents) id =
      some (document.cutTo (Column.projected batch.columns.names)) := by
  refine row?_eq_some_of_only ?_ ?_ ?_
  · refine List.mem_map_of_mem (List.mem_filter.mpr ⟨member, ?_⟩)
    simpa [carries] using asked
  · rw [idOf?_cutTo_projected, carries]
  · intro other inside otherCarries
    obtain ⟨twin, selected, rfl⟩ := List.mem_map.mp inside
    rw [idOf?_cutTo_projected] at otherCarries
    have twinMember := (List.mem_filter.mp selected).1
    by_cases same : twin = document
    · rw [same]
    · exact absurd carries ((unique batch.location).forall twinMember member same id otherCarries)

theorem row?_resultFrom_of_absent
    (absent : ∀ document ∈ documents batch.location, Record.idOf? document ≠ some id) :
    row? (batch.resultFrom documents) id = none := by
  refine row?_eq_none_of_absent fun row inside => ?_
  obtain ⟨document, selected, rfl⟩ := List.mem_map.mp inside
  rw [idOf?_cutTo_projected]
  exact absent document (List.mem_filter.mp selected).1

end Fixed

/-- Two replies for one id agree: both are missing, or both are rows with the same
values of some columns. -/
inductive AgreeOn (columns : List String) : Option Value → Option Value → Prop
  | missing : AgreeOn columns none none
  | rows {left right : Value}
      (same : ∀ column ∈ columns, left.get? column = right.get? column) :
      AgreeOn columns (some left) (some right)

/-- Two batches that both ask for an id and for some columns find the same. -/
theorem row?_agreeOn {documents : Documents} {left right : Batch} {columns : List String}
    {id : String} (unique : documents.IdsUnique) (place : left.location = right.location)
    (leftAsked : id ∈ left.ids) (rightAsked : id ∈ right.ids)
    (leftColumns : ∀ column ∈ columns, column ∈ left.columns)
    (rightColumns : ∀ column ∈ columns, column ∈ right.columns) :
    AgreeOn (Column.id :: columns) (row? (left.resultFrom documents) id)
      (row? (right.resultFrom documents) id) := by
  by_cases present : ∃ document ∈ documents left.location, Record.idOf? document = some id
  · obtain ⟨document, member, carries⟩ := present
    rw [row?_resultFrom_of_mem unique leftAsked member carries,
      row?_resultFrom_of_mem unique rightAsked (place ▸ member) carries]
    refine .rows fun column wanted => ?_
    have projectedBy : ∀ {batch : Batch}, (∀ column ∈ columns, column ∈ batch.columns) →
        column ∈ Column.projected batch.columns.names := fun asked =>
      Column.mem_projected.mpr ((List.mem_cons.mp wanted).imp_right (asked column))
    rw [Value.get?_cutTo _ _ (projectedBy leftColumns),
      Value.get?_cutTo _ _ (projectedBy rightColumns)]
  · have absent : ∀ document ∈ documents left.location, Record.idOf? document ≠ some id :=
      fun document member carries => present ⟨document, member, carries⟩
    rw [row?_resultFrom_of_absent absent, row?_resultFrom_of_absent (place ▸ absent)]
    exact .missing

end Batch

end DocGraph
