import DocGraph.Proofs.Schema.FieldFaults
import DocGraph.Proofs.Schema.Placements
import DocGraph.Proofs.Schema.Stages

/-!
# Inherited placements

A type without a container is put where a field with a container lists it, and a relation
without a placement of its own goes where the type is. Each half of a placement is inherited
by itself, so that a type and a field that name different databases keep them.
-/

namespace DocGraph

namespace Placement

variable (own listed : Placement)

/-- Both name a database, and not the same one. -/
def Clash : Prop :=
  ∃ here there, own.database = some here ∧ listed.database = some there ∧ here ≠ there

variable {own listed : Placement}

theorem withDefaultDatabase_of_container {placement : Placement} {default : Option String}
    (contained : placement.container.isSome) :
    placement.withDefaultDatabase default =
      ⟨placement.database.or default, placement.container⟩ := by
  obtain ⟨database, container⟩ := placement
  simp only at contained
  cases database <;> simp [withDefaultDatabase, contained]

/-- A database that is inherited both ways is one, unless the two that are named clash. -/
theorem database_of_not_clash {default : Option String} (clear : ¬ Clash own listed) :
    listed.database.or ((own.database.or listed.database).or default) =
      (own.database.or listed.database).or default := by
  cases here : own.database with
  | none => cases listed.database <;> rfl
  | some name =>
      cases there : listed.database with
      | none => rfl
      | some other =>
          by_contra different
          refine clear ⟨name, other, here, there, ?_⟩
          rintro rfl
          exact different rfl

end Placement

namespace TypeDecl

/-- The place of a type, with the placements that fields declare. -/
def placed (type : TypeDecl) (declared : List (String × Placement)) (default : Option String) :
    Placement :=
  (if type.placement.container.isSome then type.placement
    else type.placement.orElse
      ((Keyed.find? type.typename declared).getD .unknown)).withDefaultDatabase default

end TypeDecl

namespace Schema

def placement? (schema : Schema) (typename : String) : Option Placement :=
  (schema.entity? typename).map (·.placement)

def fieldPlacement? (schema : Schema) (typename fieldname : String) : Option Placement :=
  (schema.entity? typename).bind fun entity => (entity.field? fieldname).map (·.placement)

theorem entity?_mapFields (change : Field → Field) (schema : Schema) (typename : String) :
    (schema.mapFields change).entity? typename =
      (schema.entity? typename).map fun entity =>
        { entity with fields := entity.fields.map change } :=
  List.find?_map ..

theorem field?_map {change : Field → Field}
    (named : ∀ field, (change field).fieldname = field.fieldname) (entity : Entity)
    (fieldname : String) :
    { entity with fields := entity.fields.map change }.field? fieldname =
      (entity.field? fieldname).map change := by
  simp only [Entity.field?, List.find?_map, Function.comp_def, named]

theorem placement?_mapFields (change : Field → Field) (schema : Schema) (typename : String) :
    (schema.mapFields change).placement? typename = schema.placement? typename := by
  rw [placement?, entity?_mapFields, Option.map_map]
  rfl

theorem fieldPlacement?_settlePagination (schema : Schema) (typename fieldname : String) :
    schema.settlePagination.fieldPlacement? typename fieldname =
      schema.fieldPlacement? typename fieldname := by
  rw [fieldPlacement?, fieldPlacement?, settlePagination, entity?_mapFields, Option.bind_map]
  congr 1
  funext entity
  rw [Function.comp_apply, field?_map, Option.map_map]
  · rfl
  · exact fun _ => rfl

theorem entity?_placeEntities (declared : List (String × Placement)) (default : Option String)
    (schema : Schema) (typename : String) :
    (schema.placeEntities declared default).entity? typename =
      (schema.entity? typename).map fun entity => { entity with placement :=
        (if entity.placement.container.isSome then entity.placement
          else entity.placement.orElse
            ((Keyed.find? entity.typename declared).getD .unknown)).withDefaultDatabase default } :=
  List.find?_map ..

section

variable {schema : Schema} {declared : List (String × Placement)} {decls : List TypeDecl}
  {type holder : TypeDecl} {decl : FieldDecl} {default : Option String}

theorem Starts.placement?_placeEntities (starts : Starts decls schema) (member : type ∈ decls) :
    (schema.placeEntities declared default).placement? type.typename =
      some (type.placed declared default) := by
  obtain ⟨entity, found, started⟩ := starts.entity? member
  rw [placement?, entity?_placeEntities, found, Option.map_map, Option.map_some,
    Function.comp_apply, started.placement, started.typename, TypeDecl.placed]

/-- A relation takes what it lacks from the type that it returns. -/
theorem fieldPlacement?_placeFields {entity : Entity} {field : Field} {placement : Placement}
    {typename fieldname : String} (found : schema.entity? typename = some entity)
    (held : entity.field? fieldname = some field) (related : field.relation ≠ .embedded)
    (returned : schema.placement? field.returnTypename = some placement) :
    schema.placeFields.fieldPlacement? typename fieldname =
      some (field.placement.orElse placement) := by
  obtain ⟨target, known, rfl⟩ := Option.map_eq_some_iff.mp returned
  rw [fieldPlacement?, placeFields, entity?_mapFields, found, Option.map_some, Option.bind_some,
    field?_map, held, Option.map_some, Option.map_some, if_neg related, known]
  intro field
  split
  · rfl
  · split <;> rfl

theorem Starts.fieldPlacement?_placeFields (starts : Starts decls schema) (holds : holder ∈ decls)
    (inside : decl ∈ holder.fields) (related : decl.IsRelation) (member : type ∈ decls)
    (returns : decl.returnTypename = type.typename) :
    (schema.placeEntities declared default).placeFields.fieldPlacement? holder.typename
        decl.fieldname = some (decl.placement.orElse (type.placed declared default)) := by
  obtain ⟨entity, found, started⟩ := starts.entity? holds
  obtain ⟨field, held, begun⟩ := started.field? inside
  have relation : field.relation ≠ .embedded := fun embedded =>
    (FieldDecl.embedded_iff begun.relation).mp embedded related
  have kept := entity?_placeEntities declared default schema holder.typename
  rw [found, Option.map_some] at kept
  rw [← begun.placement]
  refine Schema.fieldPlacement?_placeFields kept held relation ?_
  rw [begun.returnTypename, returns]
  exact starts.placement?_placeEntities member

theorem Starts.find?_declaredPlacements (starts : Starts decls schema)
    (done : schema.declaredPlacements = .ok declared) (holds : holder ∈ decls)
    (inside : decl ∈ holder.fields) (contained : decl.placement.container.isSome) :
    Keyed.find? decl.returnTypename declared = some decl.placement := by
  obtain ⟨pair, member, begun⟩ := starts.exists_field holds inside
  rw [← begun.placement] at contained
  have known := Schema.find?_declaredPlacements done member contained
  rwa [begun.returnTypename, begun.placement] at known

/-- Where a schema puts types and relations. -/
structure Places (decls : List TypeDecl) (schema : Schema) (declared : List (String × Placement))
    (default : Option String) : Prop where
  lists : ∀ holder ∈ decls, ∀ decl ∈ holder.fields, decl.placement.container.isSome →
    Keyed.find? decl.returnTypename declared = some decl.placement
  types : ∀ type ∈ decls, schema.placement? type.typename = some (type.placed declared default)
  relations : ∀ holder ∈ decls, ∀ decl ∈ holder.fields, decl.IsRelation → ∀ type ∈ decls,
    decl.returnTypename = type.typename →
      schema.fieldPlacement? holder.typename decl.fieldname =
        some (decl.placement.orElse (type.placed declared default))

theorem places_of_compile (compiled : compile default decls = .ok schema) :
    ∃ declared, Places decls schema declared default := by
  obtain ⟨initial, declared, started, _, done, rfl⟩ := compile_eq_ok compiled
  have starts := starts_of_ofDecls started
  refine ⟨declared, ?_, ?_, ?_⟩
  · intro holder holds decl inside contained
    exact starts.find?_declaredPlacements done holds inside contained
  · intro type member
    rw [settlePagination, placement?_mapFields, placeFields, placement?_mapFields]
    exact starts.placement?_placeEntities member
  · intro holder holds decl inside related type member returns
    rw [fieldPlacement?_settlePagination]
    exact starts.fieldPlacement?_placeFields holds inside related member returns

theorem Places.placed_eq (places : Places decls schema declared default) (holds : holder ∈ decls)
    (inside : decl ∈ holder.fields) (contained : decl.placement.container.isSome)
    (returns : decl.returnTypename = type.typename)
    (uncontained : type.placement.container = none) :
    type.placed declared default =
      ⟨(type.placement.database.or decl.placement.database).or default,
        decl.placement.container⟩ := by
  have listed := places.lists holder holds decl inside contained
  rw [returns] at listed
  have container : (type.placement.orElse decl.placement).container = decl.placement.container := by
    simp only [Placement.orElse, uncontained, Option.none_or]
  rw [TypeDecl.placed, listed, Option.getD_some, uncontained, Option.isSome_none,
    if_neg Bool.false_ne_true,
    Placement.withDefaultDatabase_of_container (container ▸ contained), container]
  rfl

/-- A type without a container is put in that of a field that lists it. Type and field have
one place unless they name different databases, and then each keeps its own. Every relation
to the type without a placement has the place of the type. -/
theorem placements_of_listing (compiled : compile default decls = .ok schema)
    (member : type ∈ decls) (uncontained : type.placement.container = none) (holds : holder ∈ decls)
    (inside : decl ∈ holder.fields) (contained : decl.placement.container.isSome)
    (returns : decl.returnTypename = type.typename) :
    ∃ inherited listed, schema.placement? type.typename = some inherited ∧
      schema.fieldPlacement? holder.typename decl.fieldname = some listed ∧
      inherited.container = decl.placement.container ∧
      listed.container = decl.placement.container ∧
      (¬ Placement.Clash type.placement decl.placement → inherited = listed) ∧
      (Placement.Clash type.placement decl.placement →
        inherited.database = type.placement.database ∧
          listed.database = decl.placement.database) ∧
      ∀ source ∈ decls, ∀ relation ∈ source.fields, relation.IsRelation →
        relation.returnTypename = type.typename → relation.placement = .unknown →
          schema.fieldPlacement? source.typename relation.fieldname = some inherited := by
  obtain ⟨declared, places⟩ := places_of_compile compiled
  have place := places.placed_eq holds inside contained returns uncontained
  have related : decl.IsRelation := .inr (.inr contained)
  refine ⟨_, _, places.types type member,
    places.relations holder holds decl inside related type member returns, ?_, ?_, ?_, ?_, ?_⟩
  · rw [place]
  · simp only [place, Placement.orElse, Option.or_self]
  · intro clear
    simp only [place, Placement.orElse, Option.or_self, Placement.database_of_not_clash clear]
  · rintro ⟨here, there, own, other, _⟩
    simp only [place, Placement.orElse, own, other, Option.some_or, and_self]
  · intro source sources relation within related returns unknown
    rw [places.relations source sources relation within related type member returns, unknown]
    rfl

end

namespace Archive

def doc : TypeDecl := { TypeDecl.named "Doc" with placement := ⟨some "archive", none⟩ }

def docs : FieldDecl := (FieldDecl.named "docs" "Doc").many.located "live" "Docs"

def people : FieldDecl := (FieldDecl.named "people" "Person").many.located "live" "People"

def library : TypeDecl := ((TypeDecl.named "Library").withField docs).withField people

def decls : List TypeDecl := [library, doc, .named "Person"]

/-- The compiled field of a listing, in the place that it declares. -/
def listing (decl : FieldDecl) : Field where
  fieldname := decl.fieldname
  returnTypename := decl.returnTypename
  returnMany := true
  placement := decl.placement
  ours := none
  theirs := none
  filterOps := none
  filterAlias := none
  sortable := none
  sortAlias := none
  pagination := some true
  relation := .manyRoot

def schema : Schema := ⟨[⟨"Doc", .full "archive" "Docs", false, []⟩,
  ⟨"Library", .unknown, false, [listing docs, listing people]⟩,
  ⟨"Person", .full "live" "People", false, []⟩]⟩

theorem compiled : compile none decls = .ok schema := by
  simp only [compile, build, ofDecls, compileTypes, TypeDecl.compile, mergeSort_eq_insertionSort]
  rfl

/-- Documents are listed in one database, and their type is in another one. -/
theorem type_elsewhere : ¬ ∀ (default : Option String) (decls : List TypeDecl) (schema : Schema),
    compile default decls = .ok schema → ∀ type ∈ decls, type.placement.container = none →
      ∀ holder ∈ decls, ∀ decl ∈ holder.fields, decl.placement.container.isSome →
        decl.returnTypename = type.typename →
          schema.placement? type.typename =
            schema.fieldPlacement? holder.typename decl.fieldname := by
  intro together
  have same := together none decls schema compiled doc (by decide) rfl library (by decide) docs
    (by decide) rfl rfl
  have type : schema.placement? "Doc" = some (.full "archive" "Docs") := by decide
  have field : schema.fieldPlacement? "Library" "docs" = some (.full "live" "Docs") := by decide
  have places := type.symm.trans (same.trans field)
  revert places
  decide

theorem placements_of_listing_people : ∃ place, schema.placement? "Person" = some place ∧
    schema.fieldPlacement? "Library" "people" = some place := by
  have clear : ¬ Placement.Clash (TypeDecl.named "Person").placement people.placement := by
    rintro ⟨_, _, own, _⟩
    exact nomatch own
  obtain ⟨inherited, listed, type, field, _, _, one, _⟩ :=
    @placements_of_listing schema decls (.named "Person") library people none compiled (by decide)
      rfl (by decide) (by decide) rfl rfl
  obtain rfl := one clear
  exact ⟨inherited, type, field⟩

end Archive

end Schema

end DocGraph
