import DocGraph.Proofs.Schema.Compiled
import DocGraph.Proofs.Schema.NameOrder

namespace DocGraph

/-- Corresponding lists are searched alike. -/
theorem findSome?_eq_of_forall₂ {α β γ : Type} {related : α → β → Prop} {list : List α}
    {others : List β} {left : α → Option γ} {right : β → Option γ}
    (same : List.Forall₂ related list others)
    (alike : ∀ item other, related item other → left item = right other) :
    list.findSome? left = others.findSome? right := by
  induction same with
  | nil => rfl
  | cons first _ ih => simp only [List.findSome?_cons, alike _ _ first, ih]

/-- Of an item with a name of its own, a search by the name finds the partner. -/
theorem find?_partner {α β : Type} {related : α → β → Prop} {list : List α} {others : List β}
    {name : α → String} {otherName : β → String} (same : List.Forall₂ related list others)
    (named : ∀ item other, related item other → otherName other = name item)
    (distinct : (list.map name).Nodup) {item : α} (member : item ∈ list) :
    ∃ other, others.find? (otherName · == name item) = some other ∧ related item other := by
  induction same with
  | nil => contradiction
  | @cons first partner rest partners related _ ih =>
      obtain ⟨fresh, distinct⟩ := List.nodup_cons.mp distinct
      have own := named first partner related
      rcases List.mem_cons.mp member with rfl | later
      · exact ⟨partner, by simp [own], related⟩
      · obtain ⟨other, found, correspond⟩ := ih distinct later
        have apart : otherName partner ≠ name item := by
          rw [own]
          exact fun same => fresh (List.mem_map.mpr ⟨item, later, same.symm⟩)
        exact ⟨other, by simp [apart, found], correspond⟩

namespace FieldDecl

/-- What a field has of its declaration before places and pages are settled. -/
structure Starts (decl : FieldDecl) (field : Field) : Prop where
  fieldname : field.fieldname = decl.fieldname
  returnTypename : field.returnTypename = decl.returnTypename
  placement : field.placement = decl.placement
  relation : Relation.classify decl.shape = .ok field.relation

theorem starts_of_compile {decl : FieldDecl} {field : Field} (compiled : decl.compile = .ok field) :
    decl.Starts field := by
  obtain ⟨_, _, _, classified, _, _, rfl⟩ := compile_eq_ok compiled
  exact ⟨rfl, rfl, rfl, classified⟩

end FieldDecl

namespace TypeDecl

structure Starts (type : TypeDecl) (entity : Entity) : Prop where
  typename : entity.typename = type.typename
  placement : entity.placement = type.placement
  distinct : (type.fields.map (·.fieldname)).Nodup
  fields : List.Forall₂ FieldDecl.Starts (byName (·.fieldname) type.fields) entity.fields

theorem compile_eq_ok {type : TypeDecl} {entity : Entity}
    (compiled : type.compile = .ok entity) :
    entity.typename = type.typename ∧ entity.isExternal = type.isExternal ∧
      entity.placement = type.placement ∧ (type.fields.map (·.fieldname)).Nodup ∧
      List.Forall₂ (fun decl field => FieldDecl.compile decl = .ok field)
        (byName (·.fieldname) type.fields) entity.fields := by
  simp only [compile] at compiled
  split at compiled
  · contradiction
  · next distinct =>
      obtain ⟨fields, each, rfl⟩ := map_eq_ok.mp compiled
      refine ⟨rfl, rfl, rfl, firstRepeated?_byName_eq_none.mp distinct, ?_⟩
      exact (forall₂_of_mapM_ok each).imp fun decl field made => mapError_eq_ok.mp made

theorem starts_of_compile {type : TypeDecl} {entity : Entity}
    (compiled : type.compile = .ok entity) : type.Starts entity := by
  obtain ⟨typename, _, placement, distinct, fields⟩ := compile_eq_ok compiled
  exact ⟨typename, placement, distinct,
    fields.imp fun decl field made => FieldDecl.starts_of_compile made⟩

end TypeDecl

namespace Schema

structure Starts (decls : List TypeDecl) (schema : Schema) : Prop where
  distinct : (decls.map (·.typename)).Nodup
  entities : List.Forall₂ TypeDecl.Starts (byName (·.typename) decls) schema.entities

variable {decls : List TypeDecl} {schema : Schema} {type : TypeDecl} {decl : FieldDecl}

theorem ofDecls_eq_ok (compiled : ofDecls decls = .ok schema) :
    (decls.map (·.typename)).Nodup ∧
      List.Forall₂ (fun type entity => TypeDecl.compile type = .ok entity)
        (byName (·.typename) decls) schema.entities := by
  simp only [ofDecls] at compiled
  split at compiled
  · contradiction
  · next distinct =>
      obtain ⟨entities, each, rfl⟩ := map_eq_ok.mp compiled
      refine ⟨firstRepeated?_byName_eq_none.mp distinct, ?_⟩
      exact (forall₂_of_mapM_ok each).imp fun type entity made => mapError_eq_ok.mp made

theorem starts_of_ofDecls (compiled : ofDecls decls = .ok schema) : Starts decls schema := by
  obtain ⟨distinct, entities⟩ := ofDecls_eq_ok compiled
  exact ⟨distinct, entities.imp fun type entity made => TypeDecl.starts_of_compile made⟩

theorem Starts.entity? (starts : Starts decls schema) (member : type ∈ decls) :
    ∃ entity, schema.entity? type.typename = some entity ∧ type.Starts entity :=
  find?_partner starts.entities (fun _ _ started => started.typename)
    ((perm_map_byName _ _).nodup_iff.mpr starts.distinct) (mem_byName.mpr member)

theorem Starts.distinct_fields (starts : Starts decls schema) (member : type ∈ decls) :
    (type.fields.map (·.fieldname)).Nodup := by
  obtain ⟨_, _, started⟩ := starts.entity? member
  exact started.distinct

theorem Starts.typenames_perm (starts : Starts decls schema) :
    schema.typenames.Perm (decls.map (·.typename)) := by
  have inOrder : schema.typenames = (byName (·.typename) decls).map (·.typename) := by
    rw [typenames, ← List.forall₂_eq_eq_eq, List.forall₂_map_left_iff, List.forall₂_map_right_iff]
    exact starts.entities.flip.imp fun entity type started => started.typename
  rw [inOrder]
  exact perm_map_byName _ _

end Schema

theorem TypeDecl.Starts.field? {type : TypeDecl} {entity : Entity} (starts : type.Starts entity)
    {decl : FieldDecl} (member : decl ∈ type.fields) :
    ∃ field, entity.field? decl.fieldname = some field ∧ decl.Starts field :=
  find?_partner starts.fields (fun _ _ started => started.fieldname)
    ((perm_map_byName _ _).nodup_iff.mpr starts.distinct) (mem_byName.mpr member)

namespace Schema

variable {decls : List TypeDecl} {schema : Schema} {decl : FieldDecl}

theorem Starts.exists_field (starts : Starts decls schema) {holder : TypeDecl}
    (holds : holder ∈ decls) (inside : decl ∈ holder.fields) :
    ∃ pair ∈ schema.fields, decl.Starts pair.2 := by
  obtain ⟨entity, found, started⟩ := starts.entity? holds
  obtain ⟨field, held, begun⟩ := started.field? inside
  exact ⟨(entity, field), mem_fields.mpr ⟨List.mem_of_find?_eq_some found,
    List.mem_of_find?_eq_some held⟩, begun⟩

theorem Starts.exists_decl (starts : Starts decls schema) {pair : Entity × Field}
    (member : pair ∈ schema.fields) :
    ∃ holder ∈ decls, ∃ decl ∈ holder.fields, decl.Starts pair.2 := by
  obtain ⟨inside, holds⟩ := mem_fields.mp member
  obtain ⟨holder, listed, started⟩ := mem_of_forall₂ starts.entities inside
  obtain ⟨decl, declared, begun⟩ := mem_of_forall₂ started.fields holds
  exact ⟨holder, mem_byName.mp listed, decl, mem_byName.mp declared, begun⟩

end Schema

end DocGraph
