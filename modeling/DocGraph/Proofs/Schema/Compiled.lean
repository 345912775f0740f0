import DocGraph.Proofs.Outcome
import DocGraph.Resolve.Graph
import Mathlib.Data.List.Forall2

namespace DocGraph

theorem forall₂_of_mapM_ok {ε α β : Type} {step : α → Except ε β} {list : List α}
    {results : List β} (mapped : list.mapM step = .ok results) :
    List.Forall₂ (fun item result => step item = .ok result) list results := by
  induction list generalizing results with
  | nil =>
      obtain rfl := pure_eq_ok.mp mapped
      exact .nil
  | cons first rest ih =>
      rw [List.mapM_cons] at mapped
      obtain ⟨head, stepped, mapped⟩ := bind_eq_ok.mp mapped
      obtain ⟨tail, remaining, mapped⟩ := bind_eq_ok.mp mapped
      obtain rfl := pure_eq_ok.mp mapped
      exact .cons stepped (ih remaining)

theorem mem_of_forall₂ {α β : Type} {related : α → β → Prop} {list : List α} {others : List β}
    (same : List.Forall₂ related list others) {other : β} (member : other ∈ others) :
    ∃ item ∈ list, related item other := by
  induction same with
  | nil => exact absurd member List.not_mem_nil
  | cons first _ ih =>
      rcases List.mem_cons.mp member with rfl | later
      · exact ⟨_, .head _, first⟩
      · obtain ⟨item, inside, related⟩ := ih later
        exact ⟨item, .tail _ inside, related⟩

theorem mem_of_mapM_ok {ε α β : Type} {step : α → Except ε β} {list : List α} {results : List β}
    (mapped : list.mapM step = .ok results) {result : β} (member : result ∈ results) :
    ∃ item ∈ list, step item = .ok result :=
  mem_of_forall₂ (forall₂_of_mapM_ok mapped) member

theorem Keyed.mem_of_find? {α : Type} {pairs : List (String × α)} {key : String} {value : α}
    (found : Keyed.find? key pairs = some value) : (key, value) ∈ pairs := by
  induction pairs with
  | nil => contradiction
  | cons pair rest ih =>
      simp only [find?] at found
      split at found
      · next same =>
          cases found
          subst same
          exact .head _
      · exact .tail _ (ih found)

theorem Keyed.find?_isSome_of_mem {α : Type} {pairs : List (String × α)} {key : String} {value : α}
    (member : (key, value) ∈ pairs) : (Keyed.find? key pairs).isSome := by
  induction pairs with
  | nil => contradiction
  | cons pair rest ih =>
      simp only [find?]
      split
      · rfl
      · next different =>
          rcases List.mem_cons.mp member with rfl | later
          · exact absurd rfl different
          · exact ih later

namespace FieldDecl

/-- The declaration switches pagination on. -/
def AsksForPages (decl : FieldDecl) : Prop :=
  ∃ setting, decl.pagination = some setting ∧ paginationSetting setting = .ok true

/-- A field is that of a declaration, with a place and a pagination setting. -/
def Becomes (decl : FieldDecl) (field : Field) : Prop :=
  ∃ initial, decl.compile = .ok initial ∧ field = { initial with
    placement := field.placement
    pagination := some (initial.pagination.getD
      (initial.returnMany && field.placement.container.isSome && initial.ours.isNone)) }

/-- A field that compiles is its declaration with what its shape, its operators and its pagination
setting mean. -/
theorem compile_eq_ok {decl : FieldDecl} {field : Field} (compiled : decl.compile = .ok field) :
    ∃ relation operators pagination, Relation.classify decl.shape = .ok relation ∧
      decl.filterOps.mapM FieldDecl.operators = .ok operators ∧
      decl.pagination.mapM paginationSetting = .ok pagination ∧
      field = {
        fieldname := decl.fieldname
        returnTypename := decl.returnTypename
        returnMany := decl.returnMany
        placement := decl.placement
        ours := decl.ours
        theirs := decl.theirs
        filterOps := operators
        filterAlias := decl.filterAlias
        sortable := decl.sortable
        sortAlias := decl.sortAlias
        pagination
        relation } := by
  obtain ⟨relation, classified, compiled⟩ := bind_eq_ok.mp compiled
  obtain ⟨operators, listed, compiled⟩ := bind_eq_ok.mp compiled
  obtain ⟨pagination, settled, compiled⟩ := bind_eq_ok.mp compiled
  exact ⟨relation, operators, pagination, classified, listed, settled,
    (pure_eq_ok.mp compiled).symm⟩

theorem isMany_of_classify {shape : Shape} {relation : Relation}
    (classified : Relation.classify shape = .ok relation) (related : relation ≠ .embedded) :
    relation.isMany = shape.isList := by
  unfold Relation.classify at classified
  split at classified
  · contradiction
  · cases classified
    cases shape.isList
    · rfl
    · rfl
  · cases classified
    cases shape.isList
    · rfl
    · rfl
  · split at classified
    · cases classified
      contradiction
    · split at classified
      · next list =>
          cases classified
          exact list.symm
      · contradiction

structure Settles (decl : FieldDecl) (field : Field) : Prop where
  isMany : field.returnMany = field.relation.isMany
  paginated : field.returnMany = false → (field.isPaginated = true ↔ decl.AsksForPages)

theorem pages_of_mapM {pagination : Option String} {setting : Option Bool}
    (settled : pagination.mapM paginationSetting = .ok setting) :
    setting.getD false = true ↔
      ∃ text, pagination = some text ∧ paginationSetting text = .ok true := by
  cases pagination with
  | none =>
      cases settled
      exact ⟨nofun, nofun⟩
  | some text =>
      obtain ⟨on, meant, settled⟩ := map_eq_ok.mp settled
      subst settled
      constructor
      · rintro rfl
        exact ⟨text, rfl, meant⟩
      · intro asks
        obtain ⟨_, same, asked⟩ := asks
        cases same
        exact Except.ok.inj (meant.symm.trans asked)

theorem Becomes.settles {decl : FieldDecl} {field : Field} (becomes : decl.Becomes field)
    (related : field.relation ≠ .embedded) : decl.Settles field := by
  obtain ⟨initial, compiled, same⟩ := becomes
  obtain ⟨_, _, _, classified, _, settled, rfl⟩ := compile_eq_ok compiled
  generalize field.placement = placement at same
  subst same
  refine ⟨(isMany_of_classify classified related).symm, fun single => ?_⟩
  simp only at single
  simp only [Field.isPaginated, single, Bool.false_and, Option.getD_some]
  exact pages_of_mapM settled

end FieldDecl

namespace Schema

variable {schema : Schema} {entity : Entity} {field : Field}

theorem mem_fields :
    (entity, field) ∈ schema.fields ↔ entity ∈ schema.entities ∧ field ∈ entity.fields := by
  simp only [fields, List.mem_flatMap, List.mem_map, Prod.mk.injEq]
  constructor
  · rintro ⟨_, member, _, inside, rfl, rfl⟩
    exact ⟨member, inside⟩
  · rintro ⟨member, inside⟩
    exact ⟨entity, member, field, inside, rfl, rfl⟩

def typenames (schema : Schema) : List String := schema.entities.map (·.typename)

theorem mem_typenames_of_entity? {typename : String} (found : (schema.entity? typename).isSome) :
    typename ∈ schema.typenames := by
  obtain ⟨entity, found⟩ := Option.isSome_iff_exists.mp found
  have named : entity.typename = typename := by simpa using List.find?_some found
  exact List.mem_map.mpr ⟨entity, List.mem_of_find?_eq_some found, named⟩

@[simp] theorem typenames_mapFields (change : Field → Field) :
    (schema.mapFields change).typenames = schema.typenames := by
  simp only [typenames, mapFields, List.map_map]
  rfl

@[simp] theorem typenames_placeEntities (declared : List (String × Placement))
    (database : Option String) :
    (schema.placeEntities declared database).typenames = schema.typenames := by
  simp only [typenames, placeEntities, List.map_map]
  rfl

theorem mem_mapFields {change : Field → Field}
    (member : (entity, field) ∈ (schema.mapFields change).fields) :
    ∃ before earlier, (before, earlier) ∈ schema.fields ∧ entity.typename = before.typename ∧
      field = change earlier := by
  obtain ⟨inside, holds⟩ := mem_fields.mp member
  obtain ⟨before, held, rfl⟩ := List.mem_map.mp inside
  obtain ⟨earlier, kept, rfl⟩ := List.mem_map.mp holds
  exact ⟨before, earlier, mem_fields.mpr ⟨held, kept⟩, rfl, rfl⟩

theorem mem_placeEntities {declared : List (String × Placement)} {database : Option String}
    (member : (entity, field) ∈ (schema.placeEntities declared database).fields) :
    ∃ before, (before, field) ∈ schema.fields ∧ entity.typename = before.typename := by
  obtain ⟨inside, holds⟩ := mem_fields.mp member
  obtain ⟨before, held, rfl⟩ := List.mem_map.mp inside
  exact ⟨before, mem_fields.mpr ⟨held, holds⟩, rfl⟩

def DeclaredBy (decls : List TypeDecl) (typename : String) (decl : FieldDecl) : Prop :=
  ∃ type ∈ decls, type.typename = typename ∧ decl ∈ type.fields

theorem mem_ofDecls {decls : List TypeDecl} (compiled : ofDecls decls = .ok schema)
    (member : (entity, field) ∈ schema.fields) :
    ∃ decl, DeclaredBy decls entity.typename decl ∧ decl.compile = .ok field := by
  unfold ofDecls at compiled
  simp only at compiled
  split at compiled
  · contradiction
  · obtain ⟨entities, types, rfl⟩ := map_eq_ok.mp compiled
    obtain ⟨inside, holds⟩ := mem_fields.mp member
    obtain ⟨type, sorted, made⟩ := mem_of_mapM_ok types inside
    have made := mapError_eq_ok.mp made
    unfold TypeDecl.compile at made
    simp only at made
    split at made
    · contradiction
    · obtain ⟨fields, each, rfl⟩ := map_eq_ok.mp made
      obtain ⟨decl, declared, becomes⟩ := mem_of_mapM_ok each holds
      refine ⟨decl, ⟨type, List.mem_mergeSort.mp sorted, rfl, List.mem_mergeSort.mp declared⟩, ?_⟩
      exact mapError_eq_ok.mp becomes

theorem mem_typenames_of_checkReturnTypes (checked : schema.checkReturnTypes = .ok ())
    (member : (entity, field) ∈ schema.fields) (related : field.relation ≠ .embedded) :
    field.returnTypename ∈ schema.typenames := by
  unfold checkReturnTypes at checked
  split at checked
  · contradiction
  · next none =>
      have declared := List.find?_eq_none.mp none _ member
      apply mem_typenames_of_entity?
      cases found : schema.entity? field.returnTypename with
      | none => simp [related, found] at declared
      | some entity => rfl

theorem mem_placeFields (member : (entity, field) ∈ schema.placeFields.fields) :
    ∃ before earlier placement, (before, earlier) ∈ schema.fields ∧
      entity.typename = before.typename ∧ field = { earlier with placement } := by
  obtain ⟨before, earlier, held, named, rfl⟩ := mem_mapFields member
  split
  · exact ⟨before, earlier, earlier.placement, held, named, rfl⟩
  · split
    · exact ⟨before, earlier, _, held, named, rfl⟩
    · exact ⟨before, earlier, earlier.placement, held, named, rfl⟩

/-- The stages of a compilation that succeeds. -/
theorem compile_eq_ok {database : Option String} {decls : List TypeDecl}
    (compiled : compile database decls = .ok schema) :
    ∃ initial declared, ofDecls decls = .ok initial ∧ initial.checkReturnTypes = .ok () ∧
      initial.declaredPlacements = .ok declared ∧
      schema = (initial.placeEntities declared database).placeFields.settlePagination := by
  have built := mapError_eq_ok.mp compiled
  obtain ⟨initial, started, built⟩ := bind_eq_ok.mp built
  obtain ⟨_, checked, built⟩ := bind_eq_ok.mp built
  obtain ⟨declared, done, built⟩ := bind_eq_ok.mp built
  exact ⟨initial, declared, started, checked, done, (pure_eq_ok.mp built).symm⟩

/-- A field of a compiled schema stems from a declaration, and its type is declared. -/
theorem mem_compile {database : Option String} {decls : List TypeDecl}
    (compiled : compile database decls = .ok schema) (member : (entity, field) ∈ schema.fields) :
    (∃ decl, DeclaredBy decls entity.typename decl ∧ decl.Becomes field) ∧
      (field.relation ≠ .embedded → field.returnTypename ∈ schema.typenames) := by
  obtain ⟨initial, placements, declared, checked, _, rfl⟩ := compile_eq_ok compiled
  -- Back through the stages: only places and pagination settings were added.
  obtain ⟨_, placed, inPlaced, placedName, rfl⟩ := mem_mapFields member
  obtain ⟨_, first, placement, inLocated, locatedName, rfl⟩ := mem_placeFields inPlaced
  obtain ⟨_, inInitial, initialName⟩ := mem_placeEntities inLocated
  obtain ⟨decl, stated, made⟩ := mem_ofDecls declared inInitial
  have known := mem_typenames_of_checkReturnTypes checked inInitial
  refine ⟨⟨decl, ?_, first, made, rfl⟩, fun related => ?_⟩
  · rwa [placedName, locatedName, initialName]
  · simpa [settlePagination, placeFields] using known related

end Schema

/-- The resolver of a declared field, whose return type is in the catalog. -/
structure FieldResolver.StemsFrom (resolver : FieldResolver) (catalog : Catalog)
    (decl : FieldDecl) : Prop where
  becomes : decl.Becomes resolver.field
  ours : resolver.field.relation = .oneOurs ∨ resolver.field.relation = .manyOurs →
    resolver.strategy = .ours
  theirs : resolver.field.relation = .oneTheirs ∨ resolver.field.relation = .manyTheirs →
    resolver.strategy = .theirs
  returns : resolver.field.relation ≠ .embedded →
    ∃ entity, catalog.requireEntity resolver.field.returnTypename = .ok entity

/-- A relation to one record follows a key, and is paginated only on demand. -/
theorem FieldResolver.StemsFrom.one {resolver : FieldResolver} {catalog : Catalog}
    {decl : FieldDecl} (stems : resolver.StemsFrom catalog decl)
    (one : resolver.field.relation = .oneOurs ∨ resolver.field.relation = .oneTheirs) :
    (resolver.strategy = .ours ∨ resolver.strategy = .theirs) ∧
      resolver.field.returnMany = false ∧
      (resolver.field.isPaginated = true ↔ decl.AsksForPages) := by
  have related : resolver.field.relation ≠ .embedded := by
    rcases one with one | one <;> simp [one]
  have settles := stems.becomes.settles related
  have single : resolver.field.returnMany = false := by
    rw [settles.isMany]
    rcases one with one | one <;> simp [one, Relation.isMany]
  refine ⟨?_, single, settles.paginated single⟩
  rcases one with one | one
  · exact .inl (stems.ours (.inl one))
  · exact .inr (stems.theirs (.inl one))

namespace Graph

variable {graph : Graph} {decls : List TypeDecl} {resolver : FieldResolver}

/-- Compiled from declarations, whatever becomes of its errors. -/
def CompiledFrom (graph : Graph) (decls : List TypeDecl) : Prop :=
  ∃ compiled, compile graph.settings decls = .ok compiled ∧
    graph = { compiled with onError := graph.onError }

theorem compiledFrom_ofSchema {schema : Schema} {settings : Settings}
    (settled : Schema.compile settings.schema.defaultDatabase decls = .ok schema) :
    (ofCatalog (.ofSchema schema) settings).CompiledFrom decls :=
  ⟨_, by rw [compile]; exact bind_eq_ok.mpr ⟨schema, settled, rfl⟩, rfl⟩

theorem CompiledFrom.exists_schema (compiled : graph.CompiledFrom decls) :
    ∃ schema, Schema.compile graph.settings.schema.defaultDatabase decls = .ok schema ∧
      graph.catalog = .ofSchema schema ∧ graph.resolvers = resolversOf (.ofSchema schema) := by
  obtain ⟨_, made, same⟩ := compiled
  obtain ⟨schema, settled, made⟩ := bind_eq_ok.mp made
  obtain rfl := pure_eq_ok.mp made
  exact ⟨schema, settled, congrArg catalog same, congrArg resolvers same⟩

theorem requireEntity_of_mem {schema : Schema} {typename : String}
    (member : typename ∈ schema.typenames) :
    ∃ entity, (Catalog.ofSchema schema).requireEntity typename = .ok entity := by
  obtain ⟨entity, inside, rfl⟩ := List.mem_map.mp member
  have listed : (entity.typename, entity) ∈ (Catalog.ofSchema schema).entityTable :=
    List.mem_reverse.mpr (List.mem_map_of_mem inside)
  obtain ⟨found, same⟩ := Option.isSome_iff_exists.mp (Keyed.find?_isSome_of_mem listed)
  refine ⟨found, ?_⟩
  simp only [Catalog.requireEntity, Catalog.entity?, Table.lookup?, same]

theorem mem_of_lookup? {schema : Schema} {name : String}
    (known : (resolversOf (.ofSchema schema)).lookup? name = some resolver) :
    ∃ entity field, (entity, field) ∈ schema.fields ∧
      resolver = ⟨entity.typename, field, Strategy.select (.ofSchema schema) entity field⟩ := by
  have listed := List.mem_reverse.mp (Keyed.mem_of_find? known)
  obtain ⟨⟨entity, field⟩, member, same⟩ := List.mem_map.mp listed
  exact ⟨entity, field, member, (congrArg Prod.snd same).symm⟩

theorem select_keyed (catalog : Catalog) (parent : Entity) (field : Field) :
    (field.relation = .oneOurs ∨ field.relation = .manyOurs →
      Strategy.select catalog parent field = .ours) ∧
    (field.relation = .oneTheirs ∨ field.relation = .manyTheirs →
      Strategy.select catalog parent field = .theirs) := by
  unfold Strategy.select
  cases field.relation <;> simp

/-- A resolver is that of a compiled field. -/
theorem CompiledFrom.exists_field (compiled : graph.CompiledFrom decls)
    {typename fieldname : String} (known : graph.resolver? typename fieldname = some resolver) :
    ∃ schema entity field, graph.catalog = .ofSchema schema ∧
      Schema.compile graph.settings.schema.defaultDatabase decls = .ok schema ∧
      (entity, field) ∈ schema.fields ∧
      resolver = ⟨entity.typename, field, Strategy.select graph.catalog entity field⟩ := by
  obtain ⟨schema, settled, catalog, resolvers⟩ := compiled.exists_schema
  rw [Graph.resolver?, resolvers] at known
  obtain ⟨entity, field, member, same⟩ := mem_of_lookup? known
  exact ⟨schema, entity, field, catalog, settled, member, catalog ▸ same⟩

theorem CompiledFrom.stems (compiled : graph.CompiledFrom decls) {typename fieldname : String}
    (known : graph.resolver? typename fieldname = some resolver) :
    ∃ decl, Schema.DeclaredBy decls resolver.typename decl ∧
      resolver.StemsFrom graph.catalog decl := by
  obtain ⟨schema, entity, field, catalog, settled, member, rfl⟩ := compiled.exists_field known
  obtain ⟨⟨decl, declared, becomes⟩, returned⟩ := Schema.mem_compile settled member
  obtain ⟨ours, theirs⟩ := select_keyed graph.catalog entity field
  refine ⟨decl, declared, becomes, ours, theirs, fun related => ?_⟩
  rw [catalog]
  exact requireEntity_of_mem (returned related)

end Graph

end DocGraph
