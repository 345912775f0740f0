import DocGraph.Proofs.Schema.NormalForm

namespace DocGraph

namespace Placement

def Whole (placement : Placement) : Prop :=
  placement.container.isSome → placement.database.isSome

theorem Whole.container_eq_none {placement : Placement} (whole : placement.Whole)
    (unlocated : placement.location? = none) : placement.container = none := by
  obtain ⟨database, container⟩ := placement
  cases container with
  | none => rfl
  | some container =>
      obtain ⟨name, rfl⟩ := Option.isSome_iff_exists.mp (whole rfl)
      contradiction

/-- What is inherited is whole, if only a whole place lets its heirs have a container. -/
theorem Whole.orElse {own inherited : Placement} (whole : inherited.Whole)
    (uncontained : inherited.container = none → own.container = none) :
    (own.orElse inherited).Whole := by
  intro contained
  have kept : inherited.container.isSome := by
    by_contra none
    rw [Option.not_isSome_iff_eq_none] at none
    simp [Placement.orElse, none, uncontained none] at contained
  simp [Placement.orElse, whole kept]

theorem whole_withDefaultDatabase (placement : Placement) (database : String) :
    (placement.withDefaultDatabase (some database)).Whole := by
  intro contained
  obtain ⟨_ | own, _ | container⟩ := placement
  · contradiction
  · rfl
  · contradiction
  · rfl

end Placement

namespace Schema

/-- No declaration puts a type in a container: neither its own, nor that of a field which
returns it. -/
structure Unplaced (decls : List TypeDecl) (typename : String) : Prop where
  own : ∀ type ∈ decls, type.typename = typename → type.placement.container = none
  listed : ∀ holder ∈ decls, ∀ decl ∈ holder.fields, decl.returnTypename = typename →
    decl.placement.container = none

/-- All places of a schema are whole, and relations lack one only where their type is nowhere. -/
structure Located (decls : List TypeDecl) (schema : Schema) : Prop where
  types : ∀ entity ∈ schema.entities, entity.placement.Whole
  relations : ∀ entity ∈ schema.entities, ∀ field ∈ entity.fields, field.relation ≠ .embedded →
    field.placement.Whole
  unplaced : ∀ entity ∈ schema.entities, ∀ field ∈ entity.fields, field.relation ≠ .embedded →
    field.placement.container = none → Unplaced decls field.returnTypename

section

variable {decls : List TypeDecl} {schema : Schema} {declared : List (String × Placement)}
  {type : TypeDecl} {default : Option String} {database : String}

/-- Of a type that stays without a container, none was declared by its fields or itself. -/
theorem Places.unplaced (places : Places decls schema declared default)
    (distinct : (decls.map (·.typename)).Nodup) (member : type ∈ decls)
    (uncontained : (type.placed declared default).container = none) :
    Unplaced decls type.typename := by
  have own : type.placement.container = none := by
    cases contained : type.placement.container with
    | none => rfl
    | some container =>
        rw [TypeDecl.placed, contained, Option.isSome_some, if_pos rfl,
          Placement.withDefaultDatabase_of_container (by rw [contained]; rfl)] at uncontained
        exact contained.symm.trans uncontained
  refine ⟨fun other inside same => ?_, fun holder holds decl inside returns => ?_⟩
  · obtain rfl := List.inj_on_of_nodup_map distinct inside member same
    exact own
  · by_contra contained
    have listed := Option.isSome_iff_ne_none.mpr contained
    rw [places.placed_eq holds inside listed returns own] at uncontained
    exact contained uncontained

theorem Places.placement_of_settles {entity : Entity}
    (places : Places decls schema declared default)
    (increases : Increases (·.typename) schema.entities) (member : entity ∈ schema.entities)
    (declares : type ∈ decls) (settles : type.SettlesIn schema entity) :
    entity.placement = type.placed declared default := by
  have place := places.types type declares
  have found : schema.entity? entity.typename = some entity := find?_of_increases increases member
  rw [placement?, ← settles.typename, found] at place
  exact Option.some.inj place

theorem exists_decl_of_settlesIn {entity : Entity} {field : Field}
    (settled : List.Forall₂ (TypeDecl.SettlesIn schema) (byName (·.typename) decls) schema.entities)
    (member : entity ∈ schema.entities) (inside : field ∈ entity.fields) :
    ∃ holder ∈ decls, ∃ decl ∈ holder.fields, decl.SettlesIn schema field := by
  obtain ⟨holder, listed, settles⟩ := mem_of_forall₂ settled member
  obtain ⟨fields, same, settled⟩ := settles.fields
  obtain ⟨decl, declared, settles⟩ := mem_of_forall₂ settled inside
  exact ⟨holder, mem_byName.mp listed, decl, same.subset declared, settles⟩

/-- With a default database, no place is left half known. -/
theorem located_of_compile (compiled : compile (some database) decls = .ok schema) :
    Located decls schema := by
  obtain ⟨distinct, settled⟩ := settlesIn_of_compile compiled
  obtain ⟨declared, places⟩ := places_of_compile compiled
  have increases := increases_of_compile compiled
  have types : ∀ entity ∈ schema.entities, entity.placement.Whole ∧
      (entity.placement.container = none → Unplaced decls entity.typename) := by
    intro entity member
    obtain ⟨type, listed, settles⟩ := mem_of_forall₂ settled member
    have declares := mem_byName.mp listed
    rw [places.placement_of_settles increases member declares settles, settles.typename]
    exact ⟨Placement.whole_withDefaultDatabase _ _, places.unplaced distinct declares⟩
  have relations : ∀ entity ∈ schema.entities, ∀ field ∈ entity.fields,
      field.relation ≠ .embedded → field.placement.Whole ∧
        (field.placement.container = none → Unplaced decls field.returnTypename) := by
    intro entity member field inside related
    obtain ⟨holder, holds, decl, declares, settles⟩ :=
      exists_decl_of_settlesIn settled member inside
    obtain ⟨target, found, same⟩ := settles.related related
    obtain ⟨whole, unplaced⟩ := types target (List.mem_of_find?_eq_some found)
    have named : target.typename = decl.returnTypename := by
      simpa using List.find?_some found
    rw [settles.kept.returnTypename, ← named, same]
    refine ⟨whole.orElse fun uncontained => ?_, fun uncontained => unplaced ?_⟩
    · exact (unplaced uncontained).listed holder holds decl declares named.symm
    · exact (Option.or_eq_none_iff.mp uncontained).2
  exact {
    types entity member := (types entity member).1
    relations entity member field inside related := (relations entity member field inside related).1
    unplaced entity member field inside related :=
      (relations entity member field inside related).2 }

end

end Schema

end DocGraph
