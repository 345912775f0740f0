import DocGraph.Proofs.Schema.FieldFaults
import DocGraph.Proofs.Schema.Inheritance
import DocGraph.Proofs.Schema.Searching

/-!
# The normal form of declarations

A compiled schema has one type for every declared type and one field for every declared field,
in the order of their names, and nothing of a declaration is lost or changed: places and
pagination settings are only completed, and they keep the relation of every field as it is.
-/

namespace DocGraph

/-- The operators that a declaration names, in their own order and each once. -/
inductive Operator.Listed : Option (List String) → Option (List Operator) → Prop
  | unlisted : Listed none none
  | listed {names : List String} {operators : List Operator}
      (order : operators.Sublist Operator.all)
      (same : ∀ operator, operator ∈ operators ↔ operator.name ∈ names)
      (known : ∀ name ∈ names, IsName name) : Listed (some names) (some operators)

def Field.shape (field : Field) : Shape where
  hasOurs := field.ours.isSome
  hasTheirs := field.theirs.isSome
  isList := field.returnMany
  hasContainer := field.placement.container.isSome

namespace FieldDecl

/-- What a field has of its declaration. -/
structure Kept (decl : FieldDecl) (field : Field) : Prop where
  fieldname : field.fieldname = decl.fieldname
  returnTypename : field.returnTypename = decl.returnTypename
  returnMany : field.returnMany = decl.returnMany
  ours : field.ours = decl.ours
  theirs : field.theirs = decl.theirs
  filterOps : Operator.Listed decl.filterOps field.filterOps
  filterAlias : field.filterAlias = decl.filterAlias
  sortable : field.sortable = decl.sortable
  sortAlias : field.sortAlias = decl.sortAlias
  relation : Relation.classify decl.shape = .ok field.relation

/-- The field of a declaration in a compiled schema. -/
structure SettlesIn (schema : Schema) (decl : FieldDecl) (field : Field) : Prop where
  kept : decl.Kept field
  relation : Relation.classify field.shape = .ok field.relation
  inside : field.relation = .embedded → field.placement = decl.placement
  related : field.relation ≠ .embedded → ∃ target,
    schema.entity? decl.returnTypename = some target ∧
      field.placement = decl.placement.orElse target.placement
  explicit : ∀ setting, decl.pagination = some setting → ∃ on, field.pagination = some on ∧
    setting.map Char.toLower ∈ if on then ["on", "true"] else ["off", "false"]
  default : decl.pagination = none → ∃ on, field.pagination = some on ∧
    (on = true ↔ field.returnMany = true ∧ field.ours = none ∧ field.placement.container.isSome)

theorem map_name_of_mapM {names : List String} {named : List Operator}
    (found : (names.mapM fun name =>
      match Operator.ofName? name with
      | some operator => Except.ok operator
      | none => .error (SchemaFault.unknownOperator name)) = .ok named) :
    named.map Operator.name = names := by
  rw [← List.forall₂_eq_eq_eq, List.forall₂_map_left_iff]
  refine (forall₂_of_mapM_ok found).flip.imp fun operator name read => ?_
  cases known : Operator.ofName? name with
  | none => simp [known] at read
  | some other =>
      simp only [known, Except.ok.injEq] at read
      exact read ▸ Operator.name_of_ofName? known

theorem listed_of_operators {names : List String} {listed : List Operator}
    (read : operators names = .ok listed) : Operator.Listed (some names) (some listed) := by
  have known := fault?_operators_eq_none.mp (fault?_eq_none.mpr ⟨listed, read⟩)
  obtain ⟨named, found, read⟩ := bind_eq_ok.mp read
  obtain rfl := pure_eq_ok.mp read
  obtain rfl := map_name_of_mapM found
  refine .listed List.filter_sublist (fun operator => ?_) known
  have injective : Function.Injective Operator.name := by
    intro left right same
    exact Option.some.inj ((Operator.ofName?_name left).symm.trans
      (same ▸ Operator.ofName?_name right))
  simp [Operator.mem_all, injective.eq_iff]

theorem listed_of_mapM {names : Option (List String)} {listed : Option (List Operator)}
    (read : names.mapM operators = .ok listed) : Operator.Listed names listed := by
  cases names with
  | none =>
      cases read
      exact .unlisted
  | some names =>
      obtain ⟨found, known, same⟩ := map_eq_ok.mp read
      subst same
      exact listed_of_operators known

theorem paginationSetting_eq_ok {setting : String} {on : Bool}
    (read : paginationSetting setting = .ok on) :
    setting.map Char.toLower ∈ if on then ["on", "true"] else ["off", "false"] := by
  simp only [paginationSetting] at read
  split at read
  · next switched =>
      cases read
      simpa using switched
  · split at read
    · next switched =>
        cases read
        simpa using switched
    · cases read

theorem kept_of_compile {decl : FieldDecl} {field : Field} (compiled : decl.compile = .ok field) :
    decl.Kept field ∧ field.placement = decl.placement ∧
      decl.pagination.mapM paginationSetting = .ok field.pagination := by
  obtain ⟨_, _, _, classified, listed, settled, rfl⟩ := compile_eq_ok compiled
  exact ⟨⟨rfl, rfl, rfl, rfl, rfl, listed_of_mapM listed, rfl, rfl, rfl, classified⟩, rfl, settled⟩

theorem Kept.settled {decl : FieldDecl} {field : Field} (kept : decl.Kept field)
    (placement : Placement) (pagination : Option Bool) :
    decl.Kept { field with placement, pagination } :=
  ⟨kept.fieldname, kept.returnTypename, kept.returnMany, kept.ours, kept.theirs, kept.filterOps,
    kept.filterAlias, kept.sortable, kept.sortAlias, kept.relation⟩

theorem Kept.shape {decl : FieldDecl} {field : Field} (kept : decl.Kept field) :
    field.shape = { decl.shape with hasContainer := field.placement.container.isSome } := by
  simp only [Field.shape, FieldDecl.shape, kept.ours, kept.theirs, kept.returnMany]

/-- Keys settle a relation. Without keys, it has a container if and only if it is not inside. -/
theorem classify_of_container {shape : Shape} {relation : Relation} {contained : Bool}
    (classified : Relation.classify shape = .ok relation)
    (kept : shape.hasContainer = true → contained = true)
    (inside : relation = .embedded → contained = shape.hasContainer) :
    Relation.classify { shape with hasContainer := contained } = .ok relation := by
  obtain ⟨ours, theirs, list, container⟩ := shape
  simp only at kept inside
  cases ours <;> cases theirs <;> simp only [Relation.classify] at classified ⊢
  · cases container with
    | true => rwa [kept rfl]
    | false =>
        have same := inside (Except.ok.inj classified).symm
        rwa [same]
  · exact classified
  · exact classified
  · exact classified

end FieldDecl

namespace Schema

variable {schema : Schema} {declared : List (String × Placement)} {database : Option String}

def settle (located : Schema) (field : Field) : Field :=
  let placed :=
    if field.relation = .embedded then field
    else
      match located.entity? field.returnTypename with
      | some entity => { field with placement := field.placement.orElse entity.placement }
      | none => field
  { placed with pagination := some (placed.pagination.getD
      (placed.returnMany && placed.placement.container.isSome && placed.ours.isNone)) }

theorem settlePagination_placeFields (located : Schema) :
    located.placeFields.settlePagination = located.mapFields located.settle := by
  simp only [settlePagination, placeFields, mapFields, List.map_map, Function.comp_def]
  rfl

theorem settle_eq {located : Schema} {field : Field}
    (returned : field.relation ≠ .embedded → (located.entity? field.returnTypename).isSome) :
    ∃ placement, located.settle field = { field with
        placement
        pagination := some (field.pagination.getD
          (field.returnMany && placement.container.isSome && field.ours.isNone)) } ∧
      (field.relation = .embedded → placement = field.placement) ∧
      (field.relation ≠ .embedded → ∃ target, located.entity? field.returnTypename = some target ∧
        placement = field.placement.orElse target.placement) := by
  by_cases inside : field.relation = .embedded
  · refine ⟨field.placement, ?_, fun _ => rfl, fun related => absurd inside related⟩
    simp only [settle, if_pos inside]
  · obtain ⟨target, found⟩ := Option.isSome_iff_exists.mp (returned inside)
    refine ⟨field.placement.orElse target.placement, ?_, fun embedded => absurd embedded inside,
      fun _ => ⟨target, found, rfl⟩⟩
    simp only [settle, if_neg inside, found]

theorem settlesIn_settle {located : Schema} {decl : FieldDecl} {field : Field}
    (compiled : decl.compile = .ok field)
    (returned : field.relation ≠ .embedded → (located.entity? field.returnTypename).isSome) :
    decl.SettlesIn (located.mapFields located.settle) (located.settle field) := by
  obtain ⟨kept, placed, paged⟩ := FieldDecl.kept_of_compile compiled
  obtain ⟨placement, same, inside, related⟩ := settle_eq returned
  rw [same]
  have settled := kept.settled placement (some (field.pagination.getD
    (field.returnMany && placement.container.isSome && field.ours.isNone)))
  refine ⟨settled, ?_, ?_, ?_, ?_, ?_⟩
  · rw [settled.shape]
    refine FieldDecl.classify_of_container kept.relation (fun contained => ?_) fun embedded => ?_
    · by_cases embedded : field.relation = .embedded
      · rwa [inside embedded, placed]
      · obtain ⟨target, _, same⟩ := related embedded
        simp only [same, placed, Placement.orElse, Option.isSome_or]
        exact Bool.or_eq_true_iff.mpr (.inl contained)
    · simp only [inside embedded, placed]
      rfl
  · exact fun embedded => (inside embedded).trans placed
  · intro relation
    obtain ⟨target, found, same⟩ := related relation
    refine ⟨{ target with fields := target.fields.map located.settle }, ?_, ?_⟩
    · rw [entity?_mapFields, ← kept.returnTypename, found]
      rfl
    · rw [same, placed]
  · intro setting set
    rw [set] at paged
    obtain ⟨on, read, same⟩ := map_eq_ok.mp paged
    refine ⟨on, ?_, FieldDecl.paginationSetting_eq_ok read⟩
    simp only [← same, Option.getD_some]
  · intro unset
    rw [unset] at paged
    have none : field.pagination = none := (Except.ok.inj paged).symm
    refine ⟨field.returnMany && placement.container.isSome && field.ours.isNone, ?_, ?_⟩
    · simp only [none, Option.getD_none]
    · simp only [Bool.and_eq_true, Option.isNone_iff_eq_none, and_assoc,
        and_comm (a := placement.container.isSome = true)]

end Schema

/-- The type of a declaration in a compiled schema. -/
structure TypeDecl.SettlesIn (schema : Schema) (type : TypeDecl) (entity : Entity) : Prop where
  typename : entity.typename = type.typename
  isExternal : entity.isExternal = type.isExternal
  fields : ∃ decls, decls.Perm type.fields ∧
    List.Forall₂ (FieldDecl.SettlesIn schema) decls entity.fields
  increase : Increases (·.fieldname) entity.fields

theorem increases_of_forall₂ {α β : Type} {related : α → β → Prop} {name : α → String}
    {otherName : β → String} {list : List α} {others : List β}
    (same : List.Forall₂ related (byName name list) others)
    (named : ∀ item other, related item other → otherName other = name item)
    (distinct : (list.map name).Nodup) : Increases otherName others := by
  have names : others.map otherName = (byName name list).map name := by
    rw [← List.forall₂_eq_eq_eq, List.forall₂_map_left_iff, List.forall₂_map_right_iff]
    exact same.flip.imp fun other item related => named item other related
  have sorted := List.pairwise_map.mpr (pairwise_mergeSort_name name list)
  have apart := (perm_map_byName name list).nodup_iff.mpr distinct
  have strict : (others.map otherName).Pairwise (· < ·) := by
    rw [names]
    exact (sorted.and apart).imp fun ordered => lt_of_le_of_ne ordered.1 ordered.2
  exact (List.pairwise_map.mp strict).imp Text.bytes_lt

/-- A search by name finds the item that has the name, and nothing if there is none. -/
def FindsByName {α : Type} (name : α → String) (items : List α) (search : String → Option α) :
    Prop :=
  ∀ sought, (∀ item, search sought = some item ↔ item ∈ items ∧ name item = sought) ∧
    (search sought = none ↔ ∀ item ∈ items, name item ≠ sought)

theorem findsByName_of_increases {α : Type} {name : α → String} {items : List α}
    (increases : Increases name items) :
    FindsByName name items fun sought =>
      search? (fun item => Text.compareBytes (name item) sought) items := by
  intro sought
  simp only [search?_of_increases increases]
  refine ⟨fun item => ⟨fun found => ?_, fun held => ?_⟩, ?_⟩
  · exact ⟨List.mem_of_find?_eq_some found, by simpa using List.find?_some found⟩
  · obtain ⟨member, rfl⟩ := held
    exact find?_of_increases increases member
  · simp

theorem Schema.entity?_isSome_of_mem {schema : Schema} {typename : String}
    (member : typename ∈ schema.typenames) : (schema.entity? typename).isSome := by
  obtain ⟨entity, inside, rfl⟩ := List.mem_map.mp member
  exact List.find?_isSome.mpr ⟨entity, inside, by simp⟩

theorem TypeDecl.settlesIn_of_compile {type : TypeDecl} {entity : Entity} {located : Schema}
    (compiled : type.compile = .ok entity) (placement : Placement)
    (returned : ∀ field ∈ entity.fields, field.relation ≠ .embedded →
      (located.entity? field.returnTypename).isSome) :
    type.SettlesIn (located.mapFields located.settle)
      { entity with placement, fields := entity.fields.map located.settle } := by
  obtain ⟨typename, isExternal, _, distinct, fields⟩ := TypeDecl.compile_eq_ok compiled
  have settled : List.Forall₂ (FieldDecl.SettlesIn (located.mapFields located.settle))
      (byName (·.fieldname) type.fields) (entity.fields.map located.settle) := by
    rw [List.forall₂_map_right_iff]
    refine ((List.forall₂_and_left _ _).mpr ⟨returned, fields.flip⟩).flip.imp
      fun decl field both => ?_
    exact Schema.settlesIn_settle both.2 both.1
  exact ⟨typename, isExternal, ⟨_, List.mergeSort_perm .., settled⟩,
    increases_of_forall₂ settled (fun _ _ settles => settles.kept.fieldname) distinct⟩

namespace Schema

section

variable {decls : List TypeDecl} {schema : Schema} {database : Option String}

theorem settlesIn_of_compile (compiled : compile database decls = .ok schema) :
    (decls.map (·.typename)).Nodup ∧
      List.Forall₂ (TypeDecl.SettlesIn schema) (byName (·.typename) decls) schema.entities := by
  obtain ⟨initial, declared, started, checked, _, rfl⟩ := compile_eq_ok compiled
  obtain ⟨distinct, types⟩ := ofDecls_eq_ok started
  refine ⟨distinct, ?_⟩
  have returned : ∀ entity ∈ initial.entities, ∀ field ∈ entity.fields,
      field.relation ≠ .embedded →
        ((initial.placeEntities declared database).entity? field.returnTypename).isSome := by
    intro entity holder field inside related
    apply entity?_isSome_of_mem
    rw [typenames_placeEntities]
    exact mem_typenames_of_checkReturnTypes checked (mem_fields.mpr ⟨holder, inside⟩) related
  rw [settlePagination_placeFields]
  change List.Forall₂ _ _ ((initial.placeEntities declared database).entities.map _)
  rw [List.forall₂_map_right_iff]
  change List.Forall₂ _ _ (initial.entities.map _)
  rw [List.forall₂_map_right_iff]
  refine ((List.forall₂_and_left _ _).mpr ⟨returned, types.flip⟩).flip.imp
    fun type entity both => ?_
  exact TypeDecl.settlesIn_of_compile both.2 _ both.1

theorem increases_of_compile (compiled : compile database decls = .ok schema) :
    Increases (·.typename) schema.entities := by
  obtain ⟨distinct, settled⟩ := settlesIn_of_compile compiled
  exact increases_of_forall₂ settled (fun _ _ settles => settles.typename) distinct

/-- A compiled schema is that of its declarations, one type for one and one field for one, and
its searches find what there is. -/
theorem compile_normal_form (compiled : compile database decls = .ok schema) :
    (∃ types, types.Perm decls ∧ List.Forall₂ (TypeDecl.SettlesIn schema) types schema.entities) ∧
      Increases (·.typename) schema.entities ∧
      FindsByName (·.typename) schema.entities schema.searchEntity? ∧
      schema.searchEntity? = schema.entity? ∧
      ∀ entity ∈ schema.entities, FindsByName (·.fieldname) entity.fields entity.searchField? ∧
        entity.searchField? = entity.field? := by
  obtain ⟨_, settled⟩ := settlesIn_of_compile compiled
  have increases := increases_of_compile compiled
  refine ⟨⟨_, List.mergeSort_perm .., settled⟩, increases, findsByName_of_increases increases,
    funext (searchEntity?_eq increases), fun entity member => ?_⟩
  obtain ⟨type, _, settles⟩ := mem_of_forall₂ settled member
  exact ⟨findsByName_of_increases settles.increase,
    funext (Entity.searchField?_eq settles.increase)⟩

end

namespace Archive

/-- A library, declared first, stands between what it lists. -/
theorem compile_normal_form_library :
    compile none decls = .ok schema ∧
      (∃ types, types.Perm decls ∧
        List.Forall₂ (TypeDecl.SettlesIn schema) types schema.entities) ∧
      schema.searchEntity? "Person" = some ⟨"Person", .full "live" "People", false, []⟩ ∧
      schema.searchEntity? "Magazine" = none := by
  obtain ⟨types, _, finds, _⟩ := compile_normal_form compiled
  exact ⟨compiled, types, ((finds "Person").1 _).mpr (by decide),
    (finds "Magazine").2.mpr (by decide)⟩

end Archive

end Schema

end DocGraph
