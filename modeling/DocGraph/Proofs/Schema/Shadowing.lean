import DocGraph.Proofs.Schema.Lookup
import DocGraph.Proofs.Schema.NormalForm

/-!
# Fields that shadow others

A catalog has five tables of fields. Each of them lists some fields under a name in their type
and leads to the last field in schema order that has a joined name. Where names of types have
no dot, this is a field of the type that was asked for.
-/

namespace DocGraph

theorem find?_reverse_eq_some_iff {α : Type} {holds : α → Bool} {items : List α} {item : α} :
    items.reverse.find? holds = some item ↔
      ∃ before after, items = before ++ item :: after ∧ holds item = true ∧
        ∀ other ∈ after, holds other = false := by
  rw [List.find?_eq_some_iff_append]
  constructor
  · rintro ⟨found, after, before, split, later⟩
    refine ⟨before.reverse, after.reverse, ?_, found, fun other member => ?_⟩
    · rw [← List.reverse_reverse items, split]
      simp
    · simpa using later other (List.mem_reverse.mp member)
  · rintro ⟨before, after, rfl, found, later⟩
    refine ⟨found, after.reverse, before.reverse, by simp, fun other member => ?_⟩
    simp [later other (List.mem_reverse.mp member)]

namespace Catalog

/-- The tables that lead from a type and a name to a field. -/
inductive FieldTable where
  | fields
  | filters
  | sorts
  | ours
  | theirs

namespace FieldTable

/-- A table lists a field of a type under a name. -/
inductive Lists : FieldTable → Field → String → Prop
  | field (field : Field) : Lists .fields field field.fieldname
  | filter {field : Field} (filterable : field.isFilterable = true) :
      Lists .filters field field.filterColumn
  | sort {field : Field} (sortable : field.isSortable = true) :
      Lists .sorts field field.sortColumn
  | ours {field : Field} {column : String} (kept : field.ours = some column) :
      Lists .ours field column
  | theirs {field : Field} {column : String} (kept : field.theirs = some column) :
      Lists .theirs field column

def name? : FieldTable → Field → Option String
  | fields => fun field => some field.fieldname
  | filters => filterName?
  | sorts => sortName?
  | ours => (·.ours)
  | theirs => (·.theirs)

def find? (catalog : Catalog) : FieldTable → String → String → Option Field
  | fields => catalog.field?
  | filters => catalog.filterField?
  | sorts => catalog.sortField?
  | ours => catalog.oursField?
  | theirs => catalog.theirsField?

theorem name?_eq_some_iff {table : FieldTable} {field : Field} {name : String} :
    table.name? field = some name ↔ table.Lists field name := by
  cases table with
  | fields =>
      constructor
      · rintro ⟨⟩
        exact .field field
      · rintro ⟨⟩
        rfl
  | filters =>
      constructor
      · intro named
        obtain ⟨filterable, ⟨⟩⟩ := Option.ite_none_right_eq_some.mp named
        exact .filter filterable
      · rintro ⟨⟩
        exact if_pos ‹_›
  | sorts =>
      constructor
      · intro named
        obtain ⟨sortable, ⟨⟩⟩ := Option.ite_none_right_eq_some.mp named
        exact .sort sortable
      · rintro ⟨⟩
        exact if_pos ‹_›
  | ours =>
      constructor
      · exact .ours
      · rintro ⟨⟩
        assumption
  | theirs =>
      constructor
      · exact .theirs
      · rintro ⟨⟩
        assumption

theorem find?_eq (schema : Schema) (table : FieldTable) (typename name : String) :
    table.find? (.ofSchema schema) typename name =
      (namedFields table.name? schema).lookup? (joinedName typename name) := by
  cases table <;> rfl

end FieldTable

end Catalog

namespace Schema

open Catalog (FieldTable)

/-- A table lists a field of a type under a joined name, and no later field in schema order. -/
def LastJoined (schema : Schema) (table : FieldTable) (joined : String) (entity : Entity)
    (field : Field) : Prop :=
  ∃ name before after, schema.fields = before ++ (entity, field) :: after ∧
    table.Lists field name ∧ joinedName entity.typename name = joined ∧
    ∀ type other, (type, other) ∈ after → ∀ listed, table.Lists other listed →
      joinedName type.typename listed ≠ joined

/-- A field of a type is listed under a name. -/
def Offers (schema : Schema) (table : FieldTable) (typename name : String) (field : Field) : Prop :=
  ∃ entity ∈ schema.entities, entity.typename = typename ∧ field ∈ entity.fields ∧
    table.Lists field name

section

variable {schema : Schema} {table : FieldTable} {entity : Entity} {field : Field}
  {typename name joined : String}

theorem map_joinedName_eq_some_iff :
    (table.name? field).map (joinedName entity.typename) = some joined ↔
      ∃ listed, table.Lists field listed ∧ joinedName entity.typename listed = joined := by
  simp only [Option.map_eq_some_iff, FieldTable.name?_eq_some_iff]

/-- The last of the fields that have a joined name is found from the back. -/
theorem lastJoined_iff :
    schema.LastJoined table joined entity field ↔
      (schema.fields.reverse.find? fun (type, other) =>
        (table.name? other).map (joinedName type.typename) = some joined) =
          some (entity, field) := by
  simp only [find?_reverse_eq_some_iff, decide_eq_true_eq, decide_eq_false_iff_not,
    map_joinedName_eq_some_iff, Prod.forall]
  constructor
  · rintro ⟨listed, before, after, split, lists, same, later⟩
    exact ⟨before, after, split, ⟨listed, lists, same⟩,
      fun type other member ⟨listed, lists, same⟩ => later type other member listed lists same⟩
  · rintro ⟨before, after, split, ⟨listed, lists, same⟩, later⟩
    exact ⟨listed, before, after, split, lists, same,
      fun type other member listed lists same => later type other member ⟨listed, lists, same⟩⟩

theorem find?_eq_some_iff :
    table.find? (.ofSchema schema) typename name = some field ↔
      ∃ entity, schema.LastJoined table (joinedName typename name) entity field := by
  simp only [lastJoined_iff, FieldTable.find?_eq, Catalog.lookup?_namedFields,
    Option.map_eq_some_iff, Prod.exists, exists_eq_right]

theorem find?_eq_none_iff :
    table.find? (.ofSchema schema) typename name = none ↔
      ∀ entity field, (entity, field) ∈ schema.fields → ∀ listed, table.Lists field listed →
        joinedName entity.typename listed ≠ joinedName typename name := by
  simp only [FieldTable.find?_eq, Catalog.lookup?_namedFields, Option.map_eq_none_iff,
    List.find?_eq_none, List.mem_reverse, decide_eq_true_eq, map_joinedName_eq_some_iff,
    Prod.forall, not_exists, not_and, ne_eq]

theorem LastJoined.mem (last : schema.LastJoined table joined entity field) :
    (entity, field) ∈ schema.fields := by
  obtain ⟨_, before, after, split, _⟩ := last
  rw [split]
  exact List.mem_append_right _ (.head _)

/-- Without dots, a hit in a type is one of its own fields, listed under the name itself. -/
theorem LastJoined.own (undotted : '.' ∉ typename.toList)
    (others : ∀ other ∈ schema.typenames, '.' ∉ other.toList)
    (last : schema.LastJoined table (joinedName typename name) entity field) :
    entity ∈ schema.entities ∧ entity.typename = typename ∧ field ∈ entity.fields ∧
      table.Lists field name := by
  obtain ⟨holder, inside⟩ := mem_fields.mp last.mem
  obtain ⟨_, _, _, _, lists, same, _⟩ := last
  obtain ⟨rfl, rfl⟩ :=
    (joinedName_inj (others _ (List.mem_map_of_mem holder)) undotted).mp same
  exact ⟨holder, rfl, inside, lists⟩

theorem offers_of_find? (undotted : '.' ∉ typename.toList)
    (others : ∀ other ∈ schema.typenames, '.' ∉ other.toList)
    (found : table.find? (.ofSchema schema) typename name = some field) :
    schema.Offers table typename name field := by
  obtain ⟨entity, last⟩ := find?_eq_some_iff.mp found
  exact ⟨entity, last.own undotted others⟩

/-- Without dots, the table of fields agrees with a search for the type and then for the field. -/
theorem field?_eq_search {database : Option String} {decls : List TypeDecl}
    (compiled : compile database decls = .ok schema) (undotted : '.' ∉ typename.toList)
    (others : ∀ other ∈ schema.typenames, '.' ∉ other.toList) (name : String) :
    (Catalog.ofSchema schema).field? typename name =
      (schema.searchEntity? typename).bind (·.searchField? name) := by
  obtain ⟨_, _, types, _, each⟩ := compile_normal_form compiled
  have searched : ∀ {found},
      FieldTable.fields.find? (.ofSchema schema) typename name = some found →
        (schema.searchEntity? typename).bind (·.searchField? name) = some found := by
    intro found hit
    obtain ⟨entity, holder, named, inside, lists⟩ := offers_of_find? undotted others hit
    cases lists
    rw [((types typename).1 entity).mpr ⟨holder, named⟩, Option.bind_some]
    exact (((each entity holder).1 found.fieldname).1 found).mpr ⟨inside, rfl⟩
  change FieldTable.fields.find? (.ofSchema schema) typename name = _
  cases hit : FieldTable.fields.find? (.ofSchema schema) typename name with
  | some found => exact (searched hit).symm
  | none =>
      have absent := find?_eq_none_iff.mp hit
      rw [eq_comm, Option.bind_eq_none_iff]
      intro entity found
      obtain ⟨holder, rfl⟩ := ((types typename).1 entity).mp found
      refine ((each entity holder).1 name).2.mpr fun field inside same => ?_
      exact absent entity field (mem_fields.mpr ⟨holder, inside⟩) _ (.field field) (same ▸ rfl)

end

end Schema

end DocGraph
