import DocGraph.Proofs.Resolve.Cardinality
import DocGraph.Proofs.Store.Answering

namespace DocGraph

open Json

/-- The keys in a column: none, one, or those of a list in which nulls stand for none. -/
inductive Json.Value.KeepsKeys : Value → List String → Prop
  | null : KeepsKeys .null []
  | text (key : String) : KeepsKeys (.string key) [key]
  | list (keys : List (Option String)) :
      KeepsKeys (.array (keys.map fun key => key.elim .null .string)) (keys.filterMap id)

theorem keysOf_of_keepsKeys {value : Value} {ids : List String} (keeps : value.KeepsKeys ids)
    (column : String) : keysOf column value = .ok ids := by
  cases keeps with
  | null => rfl
  | text key => rfl
  | list keys =>
      have kept : (keys.map fun key => key.elim Value.null .string).filter (!·.isNull) =
          (keys.filterMap id).map .string := by
        induction keys with
        | nil => rfl
        | cons key keys ih => cases key <;> simpa [Value.isNull] using ih
      rw [keysOf, kept]
      generalize keys.filterMap id = ids
      induction ids with
      | nil => rfl
      | cons first rest ih =>
          rw [List.map_cons, List.mapM_cons, ih]
          rfl

namespace Arguments

/-- Nothing restricts or orders the records. -/
structure Plain (arguments : Arguments) : Prop where
  filter : arguments.filter = .null
  sort : arguments.sort = .null

/-- A conjunction of nothing is always true. -/
def alwaysTrue : Value := .object [("and", .array [])]

end Arguments

namespace FieldResolver

variable {resolver : FieldResolver} {arguments : Arguments} {batchSize : Nat} {column : String}
  {value : Value} {ids : List String}

theorem clientQuery_plain (plain : arguments.Plain) : clientQuery arguments = .ok ([], []) := by
  simp only [clientQuery, plain.filter, plain.sort]
  rfl

theorem clientQuery_alwaysTrue (plain : arguments.Plain) :
    clientQuery (arguments.withFilter Arguments.alwaysTrue) = .ok ([.all []], []) := by
  simp only [clientQuery, Arguments.withFilter, plain.sort]
  rfl

theorem planOurs_plain (plain : arguments.Plain) (flat : resolver.field.isPaginated = false)
    (read : keysOf column value = .ok ids) (fits : ids.length ≤ batchSize) :
    resolver.planOurs batchSize arguments column value =
      .ok (if ids.isEmpty then .answer resolver.nothing else .load ids) := by
  simp only [planOurs, read, clientQuery_plain plain, flat]
  simp [bind, Except.bind, pure, Except.pure, fits]

theorem planOurs_alwaysTrue (plain : arguments.Plain) (flat : resolver.field.isPaginated = false)
    (read : keysOf column value = .ok ids) :
    resolver.planOurs batchSize (arguments.withFilter Arguments.alwaysTrue) column value =
      .ok (if ids.isEmpty then .answer resolver.nothing
        else .query [resolver.idCondition ids, .all []] []) := by
  simp only [planOurs, read, clientQuery_alwaysTrue plain, flat]
  cases ids <;> rfl

theorem idCondition_onColumn (ids : List String) : ∃ operator operand,
    resolver.idCondition ids = .onColumn Column.id operator operand ∧
      (operator = .equal ∨ operator = .oneOf) := by
  unfold idCondition
  split
  · split
    · exact ⟨_, _, rfl, .inr rfl⟩
    · exact ⟨_, _, rfl, .inl rfl⟩
  · exact ⟨_, _, rfl, .inr rfl⟩

theorem select_idCondition (resolver : FieldResolver) {catalog : Catalog} {typename : String}
    {entity : Entity} (known : catalog.requireEntity typename = .ok entity)
    (columns ids : List String) :
    ∃ statement, catalog.select typename columns [resolver.idCondition ids, .all []] [] =
      .ok statement := by
  obtain ⟨operator, operand, same, comparison⟩ := resolver.idCondition_onColumn ids
  let test : Test := ⟨.column Column.id, ⟨operator, false⟩, operand⟩
  let filters : List Filter := [.test test, .all []]
  have named : (Parameters.ofFilters filters).nameOf? operand = some (Parameters.nameAt 0) := by
    have only : Parameters.ofFilters filters = ⟨[operand]⟩ := rfl
    simp [only, Parameters.nameOf?, Parameters.place?]
  obtain ⟨clause, written⟩ : ∃ clause, Clause.ofComparison ⟨operator, false⟩
      (Column.reference Column.id) (Parameters.nameAt 0) operand = .ok clause := by
    rcases comparison with rfl | rfl
    · exact ⟨_, rfl⟩
    · exact ⟨_, rfl⟩
  have compiled : catalog.testClause typename (.ofFilters filters) test = .ok clause := by
    simp only [Catalog.testClause, Catalog.testColumn, test, named]
    exact written
  have conditions : catalog.conditions typename (.ofFilters filters) filters =
      .ok [.clause clause, .all []] := by
    simp only [filters, Catalog.conditions, Catalog.condition] at compiled ⊢
    rw [compiled]
    rfl
  have ordered : catalog.sortText typename [] = .ok (Catalog.orderText Column.id .ascending) := by
    rfl
  have text : catalog.filterText typename filters (.ofFilters filters) =
      .ok (Condition.topLevel? [.clause clause, .all []]) := map_eq_ok.mpr ⟨_, conditions, rfl⟩
  rw [same]
  exact ⟨_, bind_eq_ok.mpr ⟨entity, mapError_eq_ok.mpr known,
    bind_eq_ok.mpr ⟨_, text, bind_eq_ok.mpr ⟨_, ordered, rfl⟩⟩⟩⟩

section Outcomes

variable (resolver : FieldResolver) (location : Location)

def loadedRecord (row : Value) : Record :=
  .ofRow .single resolver.field.returnTypename location row

def listedRecord (row : Value) : Record :=
  .ofRow .list resolver.field.returnTypename location row

/-- What becomes of rows that are loaded by id. -/
def loaded (rows : List Value) : Except ResolveFault Resolved :=
  resolver.shape (rows.map (resolver.loadedRecord location))

/-- Both find nothing, both find one document or too many, or both list the same documents
equally often. -/
inductive SameOutcome : Except ResolveFault Resolved → Except ResolveFault Resolved → Prop
  | null : SameOutcome (.ok .null) (.ok .null)
  | record (row : Value) :
      SameOutcome (.ok (.record (resolver.loadedRecord location row)))
        (.ok (.record (resolver.loadedRecord location row)))
  | cardinality (first second : Nat) :
      SameOutcome (.error (.cardinality resolver.typename resolver.field.fieldname first))
        (.error (.cardinality resolver.typename resolver.field.fieldname second))
  | records {first second : List Value} (same : first.Perm second) :
      SameOutcome (.ok (.records (first.map (resolver.loadedRecord location))))
        (.ok (.records (second.map (resolver.listedRecord location))))

/-- The rows are listed as they are, or there are too many of them; on the other side each
comes once. -/
inductive OnceEach (rows : List Value) :
    Except ResolveFault Resolved → Except ResolveFault Resolved → Prop
  | record (row : Value) (only : rows.dedup = [row]) :
      OnceEach rows
        (.error (.cardinality resolver.typename resolver.field.fieldname rows.length))
        (.ok (.record (resolver.loadedRecord location row)))
  | cardinality (several : 2 ≤ rows.dedup.length) (second : Nat) :
      OnceEach rows
        (.error (.cardinality resolver.typename resolver.field.fieldname rows.length))
        (.error (.cardinality resolver.typename resolver.field.fieldname second))
  | records {once : List Value} (distinct : once.Perm rows.dedup) :
      OnceEach rows (.ok (.records (rows.map (resolver.loadedRecord location))))
        (.ok (.records (once.map (resolver.listedRecord location))))

variable {resolver location} {rows : List Value}

/-- What a query by ids makes of the rows that it finds: it lists them, or takes the only one. -/
inductive Queried (resolver : FieldResolver) (location : Location) (rows : List Value) :
    Except ResolveFault Resolved → Prop
  | records (many : resolver.field.returnMany = true) {found : List Value}
      (all : found.Perm rows) :
      Queried resolver location rows
        (.ok (.records (found.map (resolver.listedRecord location))))
  | one (single : resolver.field.returnMany = false) {result : Except ResolveFault Resolved}
      (hides : resolver.HidesNone location rows result) :
      Queried resolver location rows result

theorem HidesNone.perm {others : List Value} {result : Except ResolveFault Resolved}
    (hides : resolver.HidesNone location rows result) (same : rows.Perm others) :
    resolver.HidesNone location others result := by
  cases hides with
  | none =>
      obtain rfl := List.nil_perm.mp same
      exact .none
  | one row =>
      obtain rfl := List.singleton_perm.mp same
      exact .one row
  | several count more => exact .several count (same.length_eq ▸ more)

/-- A page of at most two rows shows if there are several. -/
theorem hidesNone_of_answers (single : resolver.field.returnMany = false) {page : StorePage}
    (answered : page.Answers rows (some 2)) :
    resolver.HidesNone location rows (resolver.loaded location page.items) := by
  cases answered with
  | @whole items all =>
      have shown := (resolver.hidesNone_shape_iff single location (List.prefix_refl items)).mpr
        (.inr rfl)
      exact shown.perm all
  | @cut items rest _ _ bound full split =>
      cases bound
      have shown := (resolver.hidesNone_shape_iff single location
        (List.prefix_append items rest)).mpr (.inl (Nat.le_of_eq full.symm))
      exact shown.perm split

theorem shape_of_many (many : resolver.field.returnMany = true) (records : List Record) :
    resolver.shape records = .ok (.records records) := by
  simp only [shape, many, if_true]

theorem shape_of_several (one : resolver.field.returnMany = false) {records : List Record}
    (several : 2 ≤ records.length) : resolver.shape records =
      .error (.cardinality resolver.typename resolver.field.fieldname records.length) := by
  match records with
  | [] | [_] => simp at several
  | _ :: _ :: _ => simp [shape, one]

theorem loaded_nil (resolver : FieldResolver) (location : Location) :
    resolver.loaded location [] = .ok resolver.nothing := by
  simp only [loaded, List.map_nil, shape, nothing]
  split
  · rfl
  · rfl

theorem queried_nil (resolver : FieldResolver) (location : Location) :
    resolver.Queried location [] (.ok resolver.nothing) := by
  cases many : resolver.field.returnMany with
  | true =>
      rw [nothing, many]
      exact .records many (.refl [])
  | false =>
      rw [nothing, many]
      exact .one many .none

theorem sameOutcome_of_nodup {queried : Except ResolveFault Resolved} (distinct : rows.Nodup)
    (found : resolver.Queried location rows.dedup queried) :
    resolver.SameOutcome location (resolver.loaded location rows) queried := by
  rw [distinct.dedup] at found
  unfold loaded
  cases found with
  | records many all =>
      rw [shape_of_many many]
      exact .records all.symm
  | one single hides =>
      cases hides with
      | none =>
          simp only [List.map_nil, shape, single]
          exact .null
      | one row =>
          simp only [List.map_cons, List.map_nil, shape, single]
          exact .record row
      | several count more =>
          rw [shape_of_several single (by simpa using more)]
          exact .cardinality _ count

theorem two_le_length_of_repeated (repeats : ¬ rows.Nodup) : 2 ≤ rows.length := by
  match rows with
  | [] => exact absurd List.nodup_nil repeats
  | [row] => exact absurd (List.nodup_singleton row) repeats
  | _ :: _ :: _ => simp

theorem onceEach_of_repeated {queried : Except ResolveFault Resolved} (repeats : ¬ rows.Nodup)
    (found : resolver.Queried location rows.dedup queried) :
    resolver.OnceEach location rows (resolver.loaded location rows) queried := by
  unfold loaded
  cases found with
  | records many all =>
      rw [shape_of_many many]
      exact .records all
  | one single hides =>
      have several := two_le_length_of_repeated repeats
      rw [shape_of_several single (by simpa using several), List.length_map]
      generalize once : rows.dedup = distinct at hides
      cases hides with
      | none =>
          have empty : rows = [] := (List.dedup_eq_nil rows).mp once
          simp [empty] at several
      | one row => exact .record row once
      | several count more => exact .cardinality (once ▸ more) count

end Outcomes

end FieldResolver

end DocGraph
