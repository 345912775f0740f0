import DocGraph.Proofs.Schema.FieldFaults
import DocGraph.Proofs.Schema.Placements
import DocGraph.Proofs.Schema.Stages

/-!
# Ill-formed declarations

Declarations compile unless they are ill-formed or put documents of one type in several
places. Of ill-formed declarations, the first fault is reported with the type and the field
where it is: types that share a name, then the types in the order of their names, then
relations to types that are not declared.
-/

namespace DocGraph

open SchemaError

namespace TypeDecl

section

variable (type : TypeDecl)

inductive IllFormed : Prop
  | sharedFieldname (shared : ¬ (type.fields.map (·.fieldname)).Nodup)
  | field {decl : FieldDecl} (member : decl ∈ type.fields) (wrong : decl.IllFormed)

/-- The fault of an ill-formed type that is reported. -/
inductive Rejects : SchemaError → Prop
  | sharedFieldname {name : String} (shared : (type.fields.map (·.fieldname)).Duplicate name)
      (least : ∀ other, (type.fields.map (·.fieldname)).Duplicate other → name ≤ other) :
      Rejects ⟨[], .duplicateField name⟩
  | field {decl : FieldDecl} {fault : SchemaFault}
      (distinct : (type.fields.map (·.fieldname)).Nodup) (member : decl ∈ type.fields)
      (earlier : ∀ other ∈ type.fields, other.fieldname < decl.fieldname → ¬ other.IllFormed)
      (rejected : decl.Rejects fault) : Rejects ⟨["Field: " ++ decl.fieldname], fault⟩

end

variable {type : TypeDecl} {error : SchemaError}

theorem fault?_compile (type : TypeDecl) :
    fault? type.compile = faultByName? (·.fieldname) (fun name => ofFault (.duplicateField name))
      (fun decl => (fault? decl.compile).map fun fault => inField decl.fieldname (ofFault fault))
      type.fields := by
  rw [compile, faultByName?]
  cases found : firstRepeated? ((byName (·.fieldname) type.fields).map (·.fieldname)) with
  | some name => rfl
  | none => simp only [fault?_map, compileFields, fault?_mapM, fault?_mapError]

theorem illFormed_iff : fault? type.compile = none ↔ ¬ type.IllFormed := by
  simp only [fault?_compile, faultByName?_eq_none, Option.map_eq_none_iff, FieldDecl.illFormed_iff]
  constructor
  · rintro ⟨distinct, sound⟩ wrong
    cases wrong with
    | sharedFieldname shared => exact shared distinct
    | field member wrong => exact sound _ member wrong
  · intro sound
    refine ⟨?_, fun decl member wrong => sound (.field member wrong)⟩
    by_contra shared
    exact sound (.sharedFieldname shared)

theorem rejects_iff : fault? type.compile = some error ↔ type.Rejects error := by
  simp only [fault?_compile, faultByName?_eq_some, Option.map_eq_some_iff, Option.map_eq_none_iff,
    FieldDecl.illFormed_iff, FieldDecl.rejects_iff]
  constructor
  · rintro (⟨name, shared, least, rfl⟩ | ⟨distinct, decl, member, ⟨fault, rejected, rfl⟩, earlier⟩)
    · exact .sharedFieldname shared least
    · exact .field distinct member earlier rejected
  · intro rejected
    cases rejected with
    | sharedFieldname shared least => exact .inl ⟨_, shared, least, rfl⟩
    | field distinct member earlier rejected =>
        exact .inr ⟨distinct, _, member, ⟨_, rejected, rfl⟩, earlier⟩

end TypeDecl

namespace Schema

section

variable (decls : List TypeDecl)

def ReturnsUnknown (decl : FieldDecl) : Prop :=
  decl.IsRelation ∧ ∀ type ∈ decls, type.typename ≠ decl.returnTypename

inductive IllFormed : Prop
  | sharedTypename (shared : ¬ (decls.map (·.typename)).Nodup)
  | type {type : TypeDecl} (member : type ∈ decls) (wrong : type.IllFormed)
  | unknownReturnType {type : TypeDecl} {decl : FieldDecl} (member : type ∈ decls)
      (inside : decl ∈ type.fields) (unknown : ReturnsUnknown decls decl)

/-- The fault of ill-formed declarations that is reported, and where it is. -/
inductive Rejects : SchemaError → Prop
  | sharedTypename {name : String} (shared : (decls.map (·.typename)).Duplicate name)
      (least : ∀ other, (decls.map (·.typename)).Duplicate other → name ≤ other) :
      Rejects ⟨[compilation], .duplicateType name⟩
  | type {type : TypeDecl} {error : SchemaError} (distinct : (decls.map (·.typename)).Nodup)
      (member : type ∈ decls)
      (earlier : ∀ other ∈ decls, other.typename < type.typename → ¬ other.IllFormed)
      (rejected : type.Rejects error) :
      Rejects ⟨compilation :: ("Type: " ++ type.typename) :: error.trail, error.fault⟩
  | unknownReturnType {type : TypeDecl} {decl : FieldDecl}
      (distinct : (decls.map (·.typename)).Nodup) (sound : ∀ other ∈ decls, ¬ other.IllFormed)
      (member : type ∈ decls) (inside : decl ∈ type.fields)
      (earlierTypes : ∀ other ∈ decls, other.typename < type.typename →
        ∀ field ∈ other.fields, ¬ ReturnsUnknown decls field)
      (earlierFields : ∀ field ∈ type.fields, field.fieldname < decl.fieldname →
        ¬ ReturnsUnknown decls field)
      (unknown : ReturnsUnknown decls decl) :
      Rejects ⟨[compilation, "Type: " ++ type.typename, "Field: " ++ decl.fieldname],
        .unknownReturnType decl.returnTypename⟩

end

variable {decls : List TypeDecl} {schema : Schema} {error : SchemaError}

theorem fault?_ofDecls (decls : List TypeDecl) :
    fault? (ofDecls decls) = faultByName? (·.typename)
      (fun name => ofFault (.duplicateType name))
      (fun type => (fault? type.compile).map (inType type.typename)) decls := by
  rw [ofDecls, faultByName?]
  cases found : firstRepeated? ((byName (·.typename) decls).map (·.typename)) with
  | some name => rfl
  | none => simp only [fault?_map, compileTypes, fault?_mapM, fault?_mapError]

theorem fault?_ofDecls_eq_none : fault? (ofDecls decls) = none ↔
    (decls.map (·.typename)).Nodup ∧ ∀ type ∈ decls, ¬ type.IllFormed := by
  simp only [fault?_ofDecls, faultByName?_eq_none, Option.map_eq_none_iff, TypeDecl.illFormed_iff]

/-- The error about a relation that returns an unknown type. -/
def unknownReturnType (typename fieldname returnTypename : String) : SchemaError :=
  inType typename (inField fieldname (ofFault (.unknownReturnType returnTypename)))

/-- The first field of a schema is sought type by type. -/
theorem map_find?_fields {α : Type} (holds : Entity → Field → Bool) (value : Entity → Field → α)
    (schema : Schema) :
    (schema.fields.find? fun pair => holds pair.1 pair.2).map (fun pair => value pair.1 pair.2) =
      schema.entities.findSome? fun entity => entity.fields.findSome? fun field =>
        if holds entity field then some (value entity field) else none := by
  rw [fields, List.find?_flatMap, List.map_findSome?]
  congr 1
  funext entity
  rw [Function.comp_apply, List.find?_map]
  induction entity.fields with
  | nil => rfl
  | cons first rest ih =>
      cases held : holds entity first with
      | true => simp [held]
      | false => simpa [held] using ih

theorem fault?_checkReturnTypes (schema : Schema) :
    fault? schema.checkReturnTypes = schema.entities.findSome? fun entity =>
      entity.fields.findSome? fun field =>
        if field.relation ≠ .embedded && (schema.entity? field.returnTypename).isNone then
          some (unknownReturnType entity.typename field.fieldname field.returnTypename)
        else none := by
  rw [checkReturnTypes, ← map_find?_fields fun _ field =>
    field.relation ≠ .embedded && (schema.entity? field.returnTypename).isNone]
  split
  · next found => simp only [found, fault?_error, Option.map_some, unknownReturnType]
  · next none => simp only [none, fault?_ok, Option.map_none]

theorem Starts.returnsUnknown_iff (starts : Starts decls schema) {decl : FieldDecl} {field : Field}
    (started : decl.Starts field) :
    (field.relation ≠ .embedded && (schema.entity? field.returnTypename).isNone) = true ↔
      ReturnsUnknown decls decl := by
  have related : field.relation ≠ .embedded ↔ decl.IsRelation := by
    rw [ne_eq, FieldDecl.embedded_iff started.relation, Classical.not_not]
  have absent : schema.entity? field.returnTypename = none ↔
      ∀ type ∈ decls, type.typename ≠ decl.returnTypename := by
    have listed := starts.typenames_perm.mem_iff (a := decl.returnTypename)
    rw [typenames, List.mem_map, List.mem_map] at listed
    simp only [started.returnTypename, Schema.entity?, List.find?_eq_none, beq_iff_eq]
    constructor
    · intro none type member same
      obtain ⟨entity, inside, named⟩ := listed.mpr ⟨type, member, same⟩
      exact none entity inside named
    · intro none entity inside named
      obtain ⟨type, member, same⟩ := listed.mp ⟨entity, inside, named⟩
      exact none type member same
  rw [Bool.and_eq_true, decide_eq_true_eq, Option.isNone_iff_eq_none, related, absent]
  rfl

open Classical in
theorem Starts.fault?_checkReturnTypes (starts : Starts decls schema) :
    fault? schema.checkReturnTypes = (byName (·.typename) decls).findSome? fun type =>
      (byName (·.fieldname) type.fields).findSome? fun decl =>
        if ReturnsUnknown decls decl then
          some (unknownReturnType type.typename decl.fieldname decl.returnTypename)
        else none := by
  rw [Schema.fault?_checkReturnTypes]
  refine (findSome?_eq_of_forall₂ starts.entities fun type entity started => ?_).symm
  refine findSome?_eq_of_forall₂ started.fields fun decl field begun => ?_
  simp only [← starts.returnsUnknown_iff begun]
  rw [started.typename, begun.fieldname, begun.returnTypename]

theorem Starts.fault?_checkReturnTypes_eq_none (starts : Starts decls schema) :
    fault? schema.checkReturnTypes = none ↔
      ∀ type ∈ decls, ∀ decl ∈ type.fields, ¬ ReturnsUnknown decls decl := by
  simp only [starts.fault?_checkReturnTypes, findSome?_byName_eq_none, ite_eq_right_iff,
    reduceCtorEq, imp_false]

/-- The relation that is reported is the first by the names of type and field. -/
theorem Starts.fault?_checkReturnTypes_eq_some (starts : Starts decls schema) :
    fault? schema.checkReturnTypes = some error ↔
      ∃ type ∈ decls, (∃ decl ∈ type.fields, (ReturnsUnknown decls decl ∧
          unknownReturnType type.typename decl.fieldname decl.returnTypename = error) ∧
          ∀ other ∈ type.fields, other.fieldname < decl.fieldname → ¬ ReturnsUnknown decls other) ∧
        ∀ other ∈ decls, other.typename < type.typename →
          ∀ field ∈ other.fields, ¬ ReturnsUnknown decls field := by
  rw [starts.fault?_checkReturnTypes, findSome?_byName_eq_some starts.distinct]
  refine exists_congr fun type => and_congr_right fun member => ?_
  rw [findSome?_byName_eq_some (starts.distinct_fields member)]
  simp only [findSome?_byName_eq_none, ite_eq_right_iff, reduceCtorEq, imp_false,
    Option.ite_none_right_eq_some, Option.some.injEq]

theorem fault?_ofDecls_eq_some : fault? (ofDecls decls) = some error ↔
    (∃ name, (decls.map (·.typename)).Duplicate name ∧
      (∀ other, (decls.map (·.typename)).Duplicate other → name ≤ other) ∧
        ofFault (.duplicateType name) = error) ∨
    (decls.map (·.typename)).Nodup ∧ ∃ type ∈ decls,
      (∃ cause, type.Rejects cause ∧ inType type.typename cause = error) ∧
        ∀ other ∈ decls, other.typename < type.typename → ¬ other.IllFormed := by
  simp only [fault?_ofDecls, faultByName?_eq_some, Option.map_eq_some_iff, Option.map_eq_none_iff,
    TypeDecl.illFormed_iff, TypeDecl.rejects_iff]

theorem build_eq_error {database : Option String} :
    build database decls = .error error ↔ ofDecls decls = .error error ∨
      ∃ schema, ofDecls decls = .ok schema ∧ (schema.checkReturnTypes = .error error ∨
        schema.checkReturnTypes = .ok () ∧ schema.declaredPlacements = .error error) := by
  rw [build, bind_eq_error]
  refine or_congr_right (exists_congr fun schema => and_congr_right fun _ => ?_)
  rw [bind_eq_error]
  refine or_congr_right ?_
  have placed : (schema.declaredPlacements >>= fun declared => pure
      ((schema.placeEntities declared database).placeFields).settlePagination) = .error error ↔
        schema.declaredPlacements = .error error := by
    rw [bind_eq_error]
    refine or_iff_left ?_
    rintro ⟨_, _, failed⟩
    cases failed
  rw [← placed]
  constructor
  · rintro ⟨_, passed, failed⟩
    exact ⟨passed, failed⟩
  · exact fun later => ⟨(), later⟩

theorem Rejects.illFormed (rejects : Rejects decls error) : IllFormed decls := by
  cases rejects with
  | sharedTypename shared _ => exact .sharedTypename shared.not_nodup
  | type _ member _ rejected =>
      refine .type member ?_
      by_contra sound
      rw [← TypeDecl.illFormed_iff, TypeDecl.rejects_iff.mpr rejected] at sound
      contradiction
  | unknownReturnType _ _ member inside _ _ unknown =>
      exact .unknownReturnType member inside unknown

/-- What fails before placements are looked at is rejected, with the first of its faults. -/
theorem rejects_iff : Rejects decls error ↔
    ∃ cause, within compilation cause = error ∧ (ofDecls decls = .error cause ∨
      ∃ schema, ofDecls decls = .ok schema ∧ schema.checkReturnTypes = .error cause) := by
  simp only [← fault?_eq_some]
  constructor
  · intro rejects
    cases rejects with
    | sharedTypename shared least =>
        exact ⟨_, rfl, .inl (fault?_ofDecls_eq_some.mpr (.inl ⟨_, shared, least, rfl⟩))⟩
    | type distinct member earlier rejected =>
        exact ⟨_, rfl, .inl (fault?_ofDecls_eq_some.mpr
          (.inr ⟨distinct, _, member, ⟨_, rejected, rfl⟩, earlier⟩))⟩
    | unknownReturnType distinct sound member inside earlierTypes earlierFields unknown =>
        have passed := fault?_ofDecls_eq_none.mpr ⟨distinct, sound⟩
        obtain ⟨schema, compiled⟩ := fault?_eq_none.mp passed
        have failed := (starts_of_ofDecls compiled).fault?_checkReturnTypes_eq_some.mpr
          ⟨_, member, ⟨_, inside, ⟨unknown, rfl⟩, earlierFields⟩, earlierTypes⟩
        exact ⟨_, rfl, .inr ⟨schema, compiled, failed⟩⟩
  · rintro ⟨cause, rfl, failed | ⟨schema, compiled, failed⟩⟩
    · rcases fault?_ofDecls_eq_some.mp failed with ⟨name, shared, least, rfl⟩ |
        ⟨distinct, type, member, ⟨_, rejected, rfl⟩, earlier⟩
      · exact .sharedTypename shared least
      · exact .type distinct member earlier rejected
    · obtain ⟨distinct, sound⟩ := fault?_ofDecls_eq_none.mp (fault?_eq_none.mpr ⟨schema, compiled⟩)
      obtain ⟨type, member, ⟨decl, inside, ⟨unknown, rfl⟩, earlierFields⟩, earlierTypes⟩ :=
        (starts_of_ofDecls compiled).fault?_checkReturnTypes_eq_some.mp failed
      exact .unknownReturnType distinct sound member inside earlierTypes earlierFields unknown

theorem exists_rejects_iff : (∃ error, Rejects decls error) ↔ IllFormed decls := by
  constructor
  · rintro ⟨error, rejects⟩
    exact rejects.illFormed
  · intro wrong
    by_contra accepted
    have passed : ∃ schema, ofDecls decls = .ok schema := by
      cases outcome : ofDecls decls with
      | ok schema => exact ⟨schema, rfl⟩
      | error cause => exact absurd ⟨_, rejects_iff.mpr ⟨cause, rfl, .inl outcome⟩⟩ accepted
    obtain ⟨schema, compiled⟩ := passed
    have known : fault? schema.checkReturnTypes = none := by
      cases outcome : schema.checkReturnTypes with
      | ok _ => rfl
      | error cause =>
          have rejects := rejects_iff.mpr ⟨cause, rfl, .inr ⟨schema, compiled, outcome⟩⟩
          exact absurd ⟨_, rejects⟩ accepted
    obtain ⟨distinct, sound⟩ := fault?_ofDecls_eq_none.mp (fault?_eq_none.mpr ⟨schema, compiled⟩)
    cases wrong with
    | sharedTypename shared => exact shared distinct
    | type member wrong => exact sound _ member wrong
    | unknownReturnType member inside unknown =>
        exact (starts_of_ofDecls compiled).fault?_checkReturnTypes_eq_none.mp known
          _ member _ inside unknown

end Schema

theorem FieldDecl.Rejects.not_isConflict {decl : FieldDecl} {fault : SchemaFault}
    (rejects : decl.Rejects fault) : ¬ fault.IsConflict := by
  rintro ⟨typename, first, second, rfl⟩
  cases rejects

theorem TypeDecl.Rejects.not_isConflict {type : TypeDecl} {error : SchemaError}
    (rejects : type.Rejects error) : ¬ error.fault.IsConflict := by
  cases rejects with
  | sharedFieldname => exact fun ⟨_, _, _, conflict⟩ => nomatch conflict
  | field _ _ _ rejected => exact rejected.not_isConflict

namespace Schema

variable {decls : List TypeDecl} {error : SchemaError}

theorem Rejects.not_isConflict (rejects : Rejects decls error) : ¬ error.fault.IsConflict := by
  cases rejects with
  | sharedTypename => exact fun ⟨_, _, _, conflict⟩ => nomatch conflict
  | type _ _ _ rejected => exact rejected.not_isConflict
  | unknownReturnType => exact fun ⟨_, _, _, conflict⟩ => nomatch conflict

theorem compile_error_iff (database : Option String) :
    (compile database decls = .error error ∧ ¬ error.fault.IsConflict) ↔ Rejects decls error := by
  rw [compile, mapError_eq_error]
  constructor
  · rintro ⟨⟨cause, built, rfl⟩, noConflict⟩
    rcases build_eq_error.mp built with failed | ⟨schema, compiled, failed | ⟨_, failed⟩⟩
    · exact rejects_iff.mpr ⟨cause, rfl, .inl failed⟩
    · exact rejects_iff.mpr ⟨cause, rfl, .inr ⟨schema, compiled, failed⟩⟩
    · exact absurd (isConflict_of_declaredPlacements failed) noConflict
  · intro rejects
    refine ⟨?_, rejects.not_isConflict⟩
    obtain ⟨cause, same, failed | ⟨schema, compiled, failed⟩⟩ := rejects_iff.mp rejects
    · exact ⟨cause, build_eq_error.mpr (.inl failed), same⟩
    · exact ⟨cause, build_eq_error.mpr (.inr ⟨schema, compiled, .inl failed⟩), same⟩

/-- Apart from conflicts between placements, compilation fails exactly on ill-formed
declarations, and with the first of their faults. -/
theorem compile_rejects_iff (database : Option String) (decls : List TypeDecl) :
    ((∃ error, compile database decls = .error error ∧ ¬ error.fault.IsConflict) ↔
      IllFormed decls) ∧
    ∀ error, (compile database decls = .error error ∧ ¬ error.fault.IsConflict) ↔
      Rejects decls error := by
  refine ⟨?_, fun error => compile_error_iff database⟩
  rw [← exists_rejects_iff]
  exact exists_congr fun error => compile_error_iff database

end Schema

end DocGraph
