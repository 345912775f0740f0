import DocGraph.Proofs.Schema.Compiled
import DocGraph.Proofs.Schema.Lookup

namespace DocGraph

/-- How a field of a relation may be resolved. -/
inductive Strategy.Follows : Strategy → Relation → Prop
  | root : Follows .root .manyRoot
  | oneOurs : Follows .ours .oneOurs
  | manyOurs : Follows .ours .manyOurs
  | oneTheirs : Follows .theirs .oneTheirs
  | manyTheirs : Follows .theirs .manyTheirs
  | embedded : Follows .embedded .embedded
  | column : Follows .column .embedded

theorem Strategy.follows_select (catalog : Catalog) (parent : Entity) (field : Field) :
    (select catalog parent field).Follows field.relation := by
  unfold select
  cases field.relation with
  | manyRoot => exact .root
  | oneOurs => exact .oneOurs
  | manyOurs => exact .manyOurs
  | oneTheirs => exact .oneTheirs
  | manyTheirs => exact .manyTheirs
  | embedded =>
      simp only
      split
      · exact .column
      · exact .embedded

/-- Along keys goes only what has keys on that side. -/
theorem Relation.keys_of_classify {shape : Shape} {relation : Relation} {strategy : Strategy}
    (classified : classify shape = .ok relation) (follows : strategy.Follows relation) :
    (strategy = .ours → shape.hasOurs = true) ∧ (strategy = .theirs → shape.hasTheirs = true) := by
  unfold classify at classified
  split at classified
  · cases classified
  · next ours _ =>
      cases classified
      refine ⟨fun _ => ours, ?_⟩
      rintro rfl
      split at follows <;> cases follows
  · next _ theirs =>
      cases classified
      refine ⟨?_, fun _ => theirs⟩
      rintro rfl
      split at follows <;> cases follows
  · split at classified
    · cases classified
      cases follows <;> exact ⟨nofun, nofun⟩
    · split at classified
      · cases classified
        cases follows
        exact ⟨nofun, nofun⟩
      · cases classified

/-- A relation along keys has its keys where its declaration has them. -/
theorem FieldDecl.Becomes.keeps {decl : FieldDecl} {field : Field} {strategy : Strategy}
    (becomes : decl.Becomes field) (follows : strategy.Follows field.relation) :
    (strategy = .ours → field.ours.isSome) ∧ (strategy = .theirs → field.theirs.isSome) := by
  obtain ⟨initial, compiled, same⟩ := becomes
  obtain ⟨_, _, _, classified, _, _, rfl⟩ := compile_eq_ok compiled
  generalize field.placement = placement at same
  subst same
  exact Relation.keys_of_classify classified follows

namespace Graph

theorem lookup?_resolversOf (schema : Schema) (joined : String) :
    (resolversOf (.ofSchema schema)).lookup? joined =
      (schema.fields.reverse.find? fun (entity, field) =>
        joinedName entity.typename field.fieldname = joined).map fun (entity, field) =>
          ⟨entity.typename, field, Strategy.select (.ofSchema schema) entity field⟩ := by
  have found := Keyed.find?_filterMap
    (fun (entity, field) => some (joinedName entity.typename field.fieldname))
    (fun (entity, field) => (⟨entity.typename, field,
      Strategy.select (.ofSchema schema) entity field⟩ : FieldResolver))
    joined schema.fields.reverse
  simp only [Option.map_some, List.filterMap_eq_map', Option.some.injEq] at found
  rw [← found, resolversOf, Table.ofEntries, Table.lookup?, ← List.map_reverse]
  rfl

theorem field_of_lookup? (schema : Schema) (joined : String) :
    ((resolversOf (.ofSchema schema)).lookup? joined).map (·.field) =
      (Catalog.ofSchema schema).fieldTable.lookup? joined := by
  have fields := @Catalog.lookup?_namedFields schema (fun field => some field.fieldname) joined
  simp only [Option.map_some, Option.some.injEq] at fields
  rw [lookup?_resolversOf, Option.map_map, Catalog.ofSchema, fields]
  rfl

variable {graph : Graph} {decls : List TypeDecl} {resolver : FieldResolver}
  {typename fieldname : String}

theorem CompiledFrom.resolver? (compiled : graph.CompiledFrom decls)
    (typename fieldname : String) :
    (graph.resolver? typename fieldname).map (·.field) =
      graph.catalog.field? typename fieldname := by
  obtain ⟨schema, _, catalog, resolvers⟩ := compiled.exists_schema
  rw [Graph.resolver?, resolvers, catalog]
  exact field_of_lookup? schema _

/-- A resolver looks for its field as the relation of the field says. -/
theorem CompiledFrom.follows (compiled : graph.CompiledFrom decls)
    (known : graph.resolver? typename fieldname = some resolver) :
    resolver.strategy.Follows resolver.field.relation := by
  obtain ⟨_, entity, field, _, _, _, rfl⟩ := compiled.exists_field known
  exact Strategy.follows_select _ entity field

end Graph

end DocGraph
