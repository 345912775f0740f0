import DocGraph.Proofs.Outcome
import DocGraph.Schema.Compile
import Mathlib.Tactic.ByContra
import Mathlib.Tactic.MkIffOfInductiveProp

namespace DocGraph

def Operator.IsName (name : String) : Prop := ∃ operator : Operator, operator.name = name

namespace FieldDecl

/-- A setting switches pagination on or off, in upper or lower case. -/
def IsSwitch (setting : String) : Prop :=
  setting.map Char.toLower ∈ ["on", "off", "true", "false"]

instance (setting : String) : Decidable (IsSwitch setting) :=
  inferInstanceAs (Decidable (_ ∈ _))

section

variable (decl : FieldDecl)

@[mk_iff]
structure BothKeys : Prop where
  ours : decl.ours.isSome
  theirs : decl.theirs.isSome

/-- A container without keys, of which one document only is asked for. -/
@[mk_iff]
structure KeylessContainer : Prop where
  container : decl.placement.container.isSome
  noOurs : decl.ours = none
  noTheirs : decl.theirs = none
  single : decl.returnMany = false

/-- A relation has a key or a container. -/
def IsRelation : Prop :=
  decl.ours.isSome ∨ decl.theirs.isSome ∨ decl.placement.container.isSome

inductive IllFormed : Prop
  | bothKeys (keys : decl.BothKeys)
  | keylessContainer (keyless : decl.KeylessContainer)
  | unknownOperator {names : List String} {name : String} (listed : decl.filterOps = some names)
      (member : name ∈ names) (unknown : ¬ Operator.IsName name)
  | invalidPagination {setting : String} (set : decl.pagination = some setting)
      (other : ¬ IsSwitch setting)

/-- The shape is that of a relation or of a value inside the parent. -/
@[mk_iff]
structure Shaped : Prop where
  oneKey : ¬ decl.BothKeys
  keyed : ¬ decl.KeylessContainer

/-- The fault of an ill-formed field that is reported. -/
inductive Rejects : SchemaFault → Prop
  | bothKeys (keys : decl.BothKeys) : Rejects .oursAndTheirs
  | keylessContainer (keyless : decl.KeylessContainer) :
      Rejects (.illegalRelation ⟨false, false, false, true⟩)
  | unknownOperator {before after : List String} {name : String} (shaped : decl.Shaped)
      (listed : decl.filterOps = some (before ++ name :: after))
      (earlier : ∀ other ∈ before, Operator.IsName other) (unknown : ¬ Operator.IsName name) :
      Rejects (.unknownOperator name)
  | invalidPagination {setting : String} (shaped : decl.Shaped)
      (named : ∀ names, decl.filterOps = some names → ∀ name ∈ names, Operator.IsName name)
      (set : decl.pagination = some setting) (other : ¬ IsSwitch setting) :
      Rejects (.invalidPagination setting)

end

end FieldDecl

theorem Operator.isSome_ofName? {name : String} : (ofName? name).isSome ↔ IsName name := by
  rw [Option.isSome_iff_exists]
  constructor
  · rintro ⟨operator, found⟩
    exact ⟨operator, name_of_ofName? found⟩
  · rintro ⟨operator, rfl⟩
    exact ⟨operator, ofName?_name operator⟩

namespace FieldDecl

variable {decl : FieldDecl} {fault : SchemaFault}

theorem fault?_classify_eq_none :
    fault? (Relation.classify decl.shape) = none ↔ decl.Shaped := by
  rw [shaped_iff, bothKeys_iff, keylessContainer_iff]
  cases ours : decl.ours <;> cases theirs : decl.theirs <;>
    cases container : decl.placement.container <;> cases many : decl.returnMany <;>
      simp [Relation.classify, shape, ours, theirs, container, many]

theorem fault?_classify_eq_some :
    fault? (Relation.classify decl.shape) = some fault ↔
      (decl.BothKeys ∧ fault = .oursAndTheirs) ∨
        (decl.KeylessContainer ∧ fault = .illegalRelation ⟨false, false, false, true⟩) := by
  rw [bothKeys_iff, keylessContainer_iff]
  cases ours : decl.ours <;> cases theirs : decl.theirs <;>
    cases container : decl.placement.container <;> cases many : decl.returnMany <;>
      simp [Relation.classify, shape, ours, theirs, container, many, eq_comm]

theorem fault?_operators (names : List String) :
    fault? (operators names) = names.findSome? fun name =>
      if (Operator.ofName? name).isSome then none else some (.unknownOperator name) := by
  have kept : ∀ named : List Operator, fault? (pure (Operator.all.filter fun operator =>
      named.contains operator) : Except SchemaFault (List Operator)) = none := fun _ => rfl
  rw [operators, fault?_bind kept, Option.or_none, fault?_mapM]
  congr 1
  funext name
  cases Operator.ofName? name <;> rfl

theorem fault?_operators_eq_none {names : List String} :
    fault? (operators names) = none ↔ ∀ name ∈ names, Operator.IsName name := by
  simp only [fault?_operators, List.findSome?_eq_none_iff, ite_eq_left_iff, reduceCtorEq,
    imp_false, Classical.not_not, Operator.isSome_ofName?]

theorem fault?_operators_eq_some {names : List String} :
    fault? (operators names) = some fault ↔
      ∃ before name after, names = before ++ name :: after ∧
        (∀ other ∈ before, Operator.IsName other) ∧ ¬ Operator.IsName name ∧
          fault = .unknownOperator name := by
  simp only [fault?_operators, List.findSome?_eq_some_iff, Option.ite_none_left_eq_some,
    ite_eq_left_iff, reduceCtorEq, imp_false, Classical.not_not, Operator.isSome_ofName?,
    Option.some.injEq]
  constructor
  · rintro ⟨before, name, after, split, ⟨unknown, rfl⟩, earlier⟩
    exact ⟨before, name, after, split, earlier, unknown, rfl⟩
  · rintro ⟨before, name, after, split, earlier, unknown, rfl⟩
    exact ⟨before, name, after, split, ⟨unknown, rfl⟩, earlier⟩

theorem fault?_paginationSetting (setting : String) :
    fault? (paginationSetting setting) =
      if IsSwitch setting then none else some (.invalidPagination setting) := by
  simp only [paginationSetting, IsSwitch, List.mem_cons, List.not_mem_nil, or_false]
  split
  · next on =>
      rw [if_pos]
      · rfl
      · rcases on with on | on <;> simp [on]
  · next notOn =>
      split
      · next off =>
          rw [if_pos]
          · rfl
          · rcases off with off | off <;> simp [off]
      · next notOff =>
          rw [if_neg]
          · rfl
          · grind

theorem fault?_compile (decl : FieldDecl) :
    fault? decl.compile = (fault? (Relation.classify decl.shape)).or
      ((decl.filterOps.bind fun names => fault? (operators names)).or
        (decl.pagination.bind fun setting => fault? (paginationSetting setting))) := by
  rw [← fault?_option_mapM, ← fault?_option_mapM]
  refine fault?_bind fun relation => fault?_bind fun filterOps => ?_
  rw [← Option.or_none (o := fault? (decl.pagination.mapM paginationSetting))]
  exact fault?_bind fun pagination => rfl

/-- A field compiles exactly if it is not ill-formed. -/
theorem illFormed_iff : fault? decl.compile = none ↔ ¬ decl.IllFormed := by
  simp only [fault?_compile, Option.or_eq_none_iff, Option.bind_eq_none_iff,
    fault?_classify_eq_none, fault?_operators_eq_none, fault?_paginationSetting,
    ite_eq_left_iff, reduceCtorEq, imp_false, Classical.not_not]
  constructor
  · rintro ⟨shaped, named, switched⟩ wrong
    cases wrong with
    | bothKeys keys => exact shaped.oneKey keys
    | keylessContainer keyless => exact shaped.keyed keyless
    | unknownOperator listed member unknown => exact unknown (named _ listed _ member)
    | invalidPagination set other => exact other (switched _ set)
  · intro sound
    refine ⟨⟨fun keys => sound (.bothKeys keys), fun keyless => sound (.keylessContainer keyless)⟩,
      fun names listed name member => ?_, fun setting set => ?_⟩
    · by_contra unknown
      exact sound (.unknownOperator listed member unknown)
    · by_contra other
      exact sound (.invalidPagination set other)

/-- A field fails with the first of its faults: of its shape, of an operator, of its
pagination. -/
theorem rejects_iff : fault? decl.compile = some fault ↔ decl.Rejects fault := by
  simp only [fault?_compile, Option.or_eq_some_iff, Option.bind_eq_some_iff,
    Option.bind_eq_none_iff, fault?_classify_eq_none, fault?_classify_eq_some,
    fault?_operators_eq_none, fault?_operators_eq_some, fault?_paginationSetting,
    Option.ite_none_left_eq_some, Option.some.injEq]
  constructor
  · rintro ((⟨keys, rfl⟩ | ⟨keyless, rfl⟩) | ⟨shaped, ⟨names, listed, before, name, after, rfl,
      earlier, unknown, rfl⟩ | ⟨named, setting, set, other, rfl⟩⟩)
    · exact .bothKeys keys
    · exact .keylessContainer keyless
    · exact .unknownOperator shaped listed earlier unknown
    · exact .invalidPagination shaped named set other
  · intro rejected
    cases rejected with
    | bothKeys keys => exact .inl (.inl ⟨keys, rfl⟩)
    | keylessContainer keyless => exact .inl (.inr ⟨keyless, rfl⟩)
    | unknownOperator shaped listed earlier unknown =>
        exact .inr ⟨shaped, .inl ⟨_, listed, _, _, _, rfl, earlier, unknown, rfl⟩⟩
    | invalidPagination shaped named set other =>
        exact .inr ⟨shaped, .inr ⟨named, _, set, other, rfl⟩⟩

/-- What is compiled as a value inside the parent is no relation. -/
theorem embedded_iff {relation : Relation}
    (classified : Relation.classify decl.shape = .ok relation) :
    relation = .embedded ↔ ¬ decl.IsRelation := by
  cases ours : decl.ours <;> cases theirs : decl.theirs <;>
    cases container : decl.placement.container <;> cases many : decl.returnMany <;>
      simp [Relation.classify, shape, ours, theirs, container, many, IsRelation] at classified ⊢ <;>
      simp [← classified]

end FieldDecl

end DocGraph
