import DocGraph.Proofs.Schema.Stages
import DocGraph.Schema.Catalog
import DocGraph.Text.Split
import Mathlib.Data.List.Find

namespace DocGraph

theorem Keyed.find?_filterMap {α β : Type} (name? : β → Option String) (value : β → α)
    (key : String) (items : List β) :
    Keyed.find? key (items.filterMap fun item => (name? item).map fun name => (name, value item)) =
      (items.find? fun item => name? item = some key).map value := by
  induction items with
  | nil => rfl
  | cons first rest ih =>
      cases named : name? first with
      | none => simpa [named] using ih
      | some name =>
          by_cases same : key = name
          · simp [named, find?, same]
          · simpa [named, find?, same, Ne.symm same] using ih

theorem toList_joinedName (typename name : String) :
    (joinedName typename name).toList = typename.toList ++ '.' :: name.toList := by
  simp [joinedName]

theorem joinedName_inj {typename other name name' : String} (undotted : '.' ∉ typename.toList)
    (undotted' : '.' ∉ other.toList) :
    joinedName typename name = joinedName other name' ↔ typename = other ∧ name = name' := by
  constructor
  · intro same
    have left := Text.splitAtFirst?_eq_some_iff.mpr ⟨toList_joinedName typename name, undotted⟩
    have right := Text.splitAtFirst?_eq_some_iff.mpr ⟨toList_joinedName other name', undotted'⟩
    rw [same, right, Option.some.injEq, Prod.mk.injEq] at left
    exact ⟨String.toList_inj.mp left.1.symm, String.toList_inj.mp left.2.symm⟩
  · rintro ⟨rfl, rfl⟩
    rfl

/-- The last field of a type that has a name of some sort. -/
def Entity.lastNamed? (entity : Entity) (name? : Field → Option String) (name : String) :
    Option Field :=
  entity.fields.reverse.find? fun field => name? field = some name

namespace Catalog

variable {schema : Schema} {name? : Field → Option String}

theorem lookup?_namedFields (joined : String) :
    (namedFields name? schema).lookup? joined =
      (schema.fields.reverse.find? fun (entity, field) =>
        (name? field).map (joinedName entity.typename) = some joined).map (·.2) := by
  rw [namedFields, Table.ofEntries, Table.lookup?, ← List.filterMap_reverse,
    ← Keyed.find?_filterMap]
  simp only [Option.map_map, Function.comp_def]

end Catalog

theorem Entity.find?_own {entity : Entity} {name? : Field → Option String}
    (typename name : String) :
    ((entity.fields.map fun field => (entity, field)).reverse.find? fun (other, field) =>
      other.typename = typename ∧ name? field = some name).map (·.2) =
      if entity.typename = typename then entity.lastNamed? name? name else none := by
  rw [← List.map_reverse, List.find?_map, Option.map_map]
  by_cases same : entity.typename = typename
  · simp [same, Function.comp_def, lastNamed?]
  · simp [same, Function.comp_def]

namespace Schema

variable {schema : Schema} {name? : Field → Option String}

/-- Where types have distinct names, the name of a type leads to its own fields. -/
theorem find?_fields_reverse (distinct : schema.typenames.Nodup) {entity : Entity}
    (member : entity ∈ schema.entities) (name : String) :
    (schema.fields.reverse.find? fun (other, field) =>
      other.typename = entity.typename ∧ name? field = some name).map (·.2) =
      entity.lastNamed? name? name := by
  obtain ⟨entities⟩ := schema
  induction entities with
  | nil => contradiction
  | cons first rest ih =>
      obtain ⟨fresh, distinct⟩ := List.nodup_cons.mp distinct
      have split : (fields ⟨first :: rest⟩).reverse =
          (fields ⟨rest⟩).reverse ++ (first.fields.map fun field => (first, field)).reverse := by
        simp [fields]
      rw [split, List.find?_append, Option.map_or, Entity.find?_own]
      rcases List.mem_cons.mp member with rfl | later
      · have elsewhere : ((fields ⟨rest⟩).reverse.find? fun (other, field) =>
            other.typename = entity.typename ∧ name? field = some name) = none := by
          refine List.find?_eq_none.mpr fun pair inside => ?_
          have holder := (mem_fields.mp (List.mem_reverse.mp inside)).1
          have other : pair.1.typename ≠ entity.typename := fun same =>
            fresh (List.mem_map.mpr ⟨pair.1, holder, same⟩)
          simp [other]
        rw [elsewhere, if_pos rfl]
        rfl
      · have other : first.typename ≠ entity.typename := fun same =>
          fresh (List.mem_map.mpr ⟨entity, later, same.symm⟩)
        rw [ih distinct later, if_neg other, Option.or_none]

end Schema

/-- The names of types are distinct and have no dot. -/
structure Schema.PlainTypes (schema : Schema) : Prop where
  distinct : schema.typenames.Nodup
  undotted : ∀ typename ∈ schema.typenames, '.' ∉ typename.toList

namespace Catalog

variable {schema : Schema} {name? : Field → Option String}

/-- A lookup in a type finds the last of its own fields. -/
theorem lookup?_joinedName (plain : schema.PlainTypes) {entity : Entity}
    (member : entity ∈ schema.entities) (name : String) :
    (namedFields name? schema).lookup? (joinedName entity.typename name) =
      entity.lastNamed? name? name := by
  have undotted : ∀ entity ∈ schema.entities, '.' ∉ entity.typename.toList := fun _ inside =>
    plain.undotted _ (List.mem_map_of_mem inside)
  rw [lookup?_namedFields, ← Schema.find?_fields_reverse plain.distinct member]
  refine congrArg _ (List.find?_congr fun pair inside => ?_)
  obtain ⟨holder, _⟩ := Schema.mem_fields.mp (List.mem_reverse.mp inside)
  cases named : name? pair.2 with
  | none => simp [named]
  | some found => simp [named, joinedName_inj (undotted _ holder) (undotted _ member)]

theorem filterField?_ofSchema (plain : schema.PlainTypes) {entity : Entity}
    (member : entity ∈ schema.entities) (key : String) :
    (ofSchema schema).filterField? entity.typename key = entity.lastNamed? filterName? key :=
  lookup?_joinedName plain member key

end Catalog

namespace Schema

variable {schema : Schema}

/-- A compiled schema has the declared types, each once. -/
theorem typenames_compile {database : Option String} {decls : List TypeDecl}
    (compiled : compile database decls = .ok schema) :
    schema.typenames.Nodup ∧ schema.typenames.Perm (decls.map (·.typename)) := by
  obtain ⟨initial, placements, declared, _, _, rfl⟩ := compile_eq_ok compiled
  have kept : (initial.placeEntities placements database).placeFields.settlePagination.typenames =
      initial.typenames := by
    rw [settlePagination, typenames_mapFields, placeFields, typenames_mapFields,
      typenames_placeEntities]
  have starts := starts_of_ofDecls declared
  rw [kept]
  exact ⟨starts.typenames_perm.nodup_iff.mpr starts.distinct, starts.typenames_perm⟩

theorem plainTypes_of_compile {database : Option String} {decls : List TypeDecl}
    (compiled : compile database decls = .ok schema)
    (undotted : ∀ decl ∈ decls, '.' ∉ decl.typename.toList) : schema.PlainTypes := by
  obtain ⟨distinct, permuted⟩ := typenames_compile compiled
  refine ⟨distinct, fun typename member => ?_⟩
  obtain ⟨decl, declared, rfl⟩ := List.mem_map.mp (permuted.mem_iff.mp member)
  exact undotted decl declared

end Schema

end DocGraph
