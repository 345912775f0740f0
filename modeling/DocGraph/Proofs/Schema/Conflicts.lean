import DocGraph.Proofs.Schema.Inheritance
import DocGraph.Proofs.Schema.Rejection

/-!
# Conflicts between placements

A type without a container is put where fields with containers list it. Where these fields
disagree, its place is ambiguous, and compilation reports a conflict. It compares what the
fields declare, and so also reports fields that put their type in one place once the default
database is known, and fields that list a type which has a container and inherits nothing.
-/

namespace DocGraph

namespace Schema

section

variable {declared next : List (String × Placement)} {pair : Entity × Field}

theorem known_of_declare (done : declare declared pair = .ok next) {typename : String}
    {placement : Placement} (known : Keyed.find? typename next = some placement) :
    Keyed.find? typename declared = some placement ∨
      pair.2.placement.container.isSome ∧ pair.2.returnTypename = typename ∧
        pair.2.placement = placement := by
  unfold declare at done
  split at done
  · cases done
    exact .inl known
  · next contained =>
      split at done
      · cases done
        rw [Keyed.find?_insert] at known
        split at known
        · next same =>
            refine .inr ⟨?_, same.symm, Option.some.inj known⟩
            simpa [Option.isSome_iff_ne_none] using contained
        · exact .inl known
      · split at done
        · cases done
          exact .inl known
        · contradiction

theorem declare_succeeds (agrees : pair.2.placement.container.isSome → ∀ placement,
      Keyed.find? pair.2.returnTypename declared = some placement →
        placement = pair.2.placement) : ∃ next, declare declared pair = .ok next := by
  unfold declare
  split
  · exact ⟨_, rfl⟩
  · next contained =>
      split
      · exact ⟨_, rfl⟩
      · next first known =>
          have same := agrees (by simpa [Option.isSome_iff_ne_none] using contained) first known
          exact ⟨declared, if_pos same⟩

def Agree (first second : Entity × Field) : Prop :=
  first.2.placement.container.isSome → second.2.placement.container.isSome →
    first.2.returnTypename = second.2.returnTypename → first.2.placement = second.2.placement

theorem foldlM_declare_succeeds {pairs : List (Entity × Field)}
    (agree : pairs.Pairwise Agree)
    (agrees : ∀ pair ∈ pairs, pair.2.placement.container.isSome → ∀ placement,
      Keyed.find? pair.2.returnTypename declared = some placement →
        placement = pair.2.placement) :
    ∃ next, pairs.foldlM declare declared = .ok next := by
  induction pairs generalizing declared with
  | nil => exact ⟨declared, rfl⟩
  | cons first rest ih =>
      obtain ⟨alike, agree⟩ := List.pairwise_cons.mp agree
      obtain ⟨between, done⟩ := declare_succeeds (agrees first (.head _))
      have later : ∀ pair ∈ rest, pair.2.placement.container.isSome → ∀ placement,
          Keyed.find? pair.2.returnTypename between = some placement →
            placement = pair.2.placement := by
        intro pair member contained placement known
        rcases known_of_declare done known with before | ⟨listed, named, rfl⟩
        · exact agrees pair (.tail _ member) contained placement before
        · exact alike pair member listed contained named
      obtain ⟨next, declares⟩ := ih agree later
      exact ⟨next, by rw [List.foldlM_cons]; exact bind_eq_ok.mpr ⟨between, done, declares⟩⟩

theorem declaredPlacements_succeeds_iff {schema : Schema} :
    (∃ declared, schema.declaredPlacements = .ok declared) ↔
      ∀ first ∈ schema.fields, ∀ second ∈ schema.fields, Agree first second := by
  constructor
  · rintro ⟨declared, done⟩ first here second there listed listed' same
    have known := find?_declaredPlacements done here listed
    rw [same, find?_declaredPlacements done there listed'] at known
    exact (Option.some.inj known).symm
  · intro agree
    rw [declaredPlacements_eq_foldlM]
    apply foldlM_declare_succeeds (List.pairwise_of_forall_mem_list agree)
    intro pair _ _ placement known
    cases known

end

section

variable (decls : List TypeDecl) (type : TypeDecl)

def Lists (decl : FieldDecl) : Prop :=
  ∃ holder ∈ decls, decl ∈ holder.fields ∧ decl.placement.container.isSome ∧
    decl.returnTypename = type.typename

/-- A type that has to inherit its place is listed in two places. -/
def Ambiguous (default : Option String) : Prop :=
  type.placement.container = none ∧ ∃ first second, Lists decls type first ∧
    Lists decls type second ∧ first.placement.withDefaultDatabase default ≠
      second.placement.withDefaultDatabase default

/-- A type is listed in what looks like two places. Either it has a container of its own and
inherits neither, or both are one with the default database. -/
inductive Misread (default : Option String) : Prop
  | settled {first second : FieldDecl} (own : type.placement.container.isSome)
      (here : Lists decls type first) (there : Lists decls type second)
      (apart : first.placement ≠ second.placement) : Misread default
  | filled {first second : FieldDecl} {database : String} (known : default = some database)
      (here : Lists decls type first) (there : Lists decls type second)
      (container : first.placement.container = second.placement.container)
      (leaves : first.placement.database = none)
      (names : second.placement.database = some database) : Misread default

end

section

variable {decls : List TypeDecl} {schema : Schema} {type : TypeDecl} {default : Option String}

theorem Lists.contained {decl : FieldDecl} (lists : Lists decls type decl) :
    decl.placement.container.isSome := by
  obtain ⟨_, _, _, contained, _⟩ := lists
  exact contained

/-- The default database makes one placement of two that differ only in naming it. -/
theorem withDefaultDatabase_eq_iff {first second : Placement}
    (contained : first.container.isSome) (contained' : second.container.isSome) :
    first ≠ second ∧ first.withDefaultDatabase default = second.withDefaultDatabase default ↔
      ∃ database, default = some database ∧ first.container = second.container ∧
        (first.database = none ∧ second.database = some database ∨
          first.database = some database ∧ second.database = none) := by
  rw [Placement.withDefaultDatabase_of_container contained,
    Placement.withDefaultDatabase_of_container contained']
  obtain ⟨database, container⟩ := first
  obtain ⟨database', container'⟩ := second
  cases database <;> cases database' <;> cases default <;> simp <;> grind

theorem ambiguous_or_misread_iff :
    (Ambiguous decls type default ∨ Misread decls type default) ↔
      ∃ first second, Lists decls type first ∧ Lists decls type second ∧
        first.placement ≠ second.placement := by
  constructor
  · rintro (⟨_, first, second, here, there, apart⟩ | misread)
    · exact ⟨first, second, here, there, fun same => apart (congrArg _ same)⟩
    · cases misread with
      | settled _ here there apart => exact ⟨_, _, here, there, apart⟩
      | filled _ here there _ leaves names =>
          refine ⟨_, _, here, there, fun same => ?_⟩
          rw [same, names] at leaves
          contradiction
  · rintro ⟨first, second, here, there, apart⟩
    cases own : type.placement.container with
    | some container => exact .inr (.settled (by rw [own]; rfl) here there apart)
    | none =>
        by_cases same : first.placement.withDefaultDatabase default =
            second.placement.withDefaultDatabase default
        · obtain ⟨database, known, container, ⟨leaves, names⟩ | ⟨names, leaves⟩⟩ :=
            (withDefaultDatabase_eq_iff here.contained there.contained).mp ⟨apart, same⟩
          · exact .inr (.filled known here there container leaves names)
          · exact .inr (.filled known there here container.symm leaves names)
        · exact .inl ⟨own, first, second, here, there, same⟩

theorem passes_of_not_illFormed (sound : ¬ IllFormed decls) :
    ∃ schema, ofDecls decls = .ok schema ∧ schema.checkReturnTypes = .ok () := by
  have accepted : ∀ error, ¬ Rejects decls error :=
    fun error rejects => sound (exists_rejects_iff.mp ⟨error, rejects⟩)
  cases compiled : ofDecls decls with
  | error cause => exact absurd (rejects_iff.mpr ⟨cause, rfl, .inl compiled⟩) (accepted _)
  | ok schema =>
      cases checked : schema.checkReturnTypes with
      | ok _ => exact ⟨schema, rfl, checked⟩
      | error cause =>
          exact absurd (rejects_iff.mpr ⟨cause, rfl, .inr ⟨schema, compiled, checked⟩⟩) (accepted _)

theorem disagree_iff (sound : ¬ IllFormed decls) (starts : Starts decls schema) :
    (∃ first ∈ schema.fields, ∃ second ∈ schema.fields, ¬ Agree first second) ↔
      ∃ type ∈ decls, ∃ first second, Lists decls type first ∧ Lists decls type second ∧
        first.placement ≠ second.placement := by
  constructor
  · rintro ⟨first, here, second, there, apart⟩
    obtain ⟨listed, listed', same, differ⟩ :
        first.2.placement.container.isSome ∧ second.2.placement.container.isSome ∧
          first.2.returnTypename = second.2.returnTypename ∧
          first.2.placement ≠ second.2.placement := by
      simpa [Agree] using apart
    obtain ⟨holder, holds, decl, inside, begun⟩ := starts.exists_decl here
    obtain ⟨holder', holds', decl', inside', begun'⟩ := starts.exists_decl there
    rw [begun.placement] at listed differ
    rw [begun'.placement] at listed' differ
    rw [begun.returnTypename, begun'.returnTypename] at same
    have known : ∃ type ∈ decls, type.typename = decl.returnTypename := by
      by_contra unknown
      refine sound (.unknownReturnType holds inside ⟨.inr (.inr listed), ?_⟩)
      exact fun type member named => unknown ⟨type, member, named⟩
    obtain ⟨type, member, named⟩ := known
    exact ⟨type, member, decl, decl', ⟨holder, holds, inside, listed, named.symm⟩,
      ⟨holder', holds', inside', listed', (named.trans same).symm⟩, differ⟩
  · rintro ⟨type, _, decl, decl', ⟨holder, holds, inside, listed, named⟩,
      ⟨holder', holds', inside', listed', named'⟩, differ⟩
    obtain ⟨first, here, begun⟩ := starts.exists_field holds inside
    obtain ⟨second, there, begun'⟩ := starts.exists_field holds' inside'
    refine ⟨first, here, second, there, fun agree => differ ?_⟩
    rw [← begun.placement, ← begun'.placement]
    rw [← begun.placement] at listed
    rw [← begun'.placement] at listed'
    refine agree listed listed' ?_
    rw [begun.returnTypename, begun'.returnTypename, named, named']

theorem compile_conflict_iff (compiled : ofDecls decls = .ok schema)
    (checked : schema.checkReturnTypes = .ok ()) (default : Option String) :
    (∃ error, compile default decls = .error error ∧ error.fault.IsConflict) ↔
      ¬ ∃ declared, schema.declaredPlacements = .ok declared := by
  constructor
  · rintro ⟨_, failed, conflict⟩ ⟨declared, done⟩
    obtain ⟨cause, built, rfl⟩ := mapError_eq_error.mp failed
    rcases build_eq_error.mp built with failed | ⟨other, same, failed | ⟨_, failed⟩⟩
    · exact error_ne_ok (failed.symm.trans compiled)
    · obtain rfl := Except.ok.inj (same.symm.trans compiled)
      exact error_ne_ok (failed.symm.trans checked)
    · obtain rfl := Except.ok.inj (same.symm.trans compiled)
      exact error_ne_ok (failed.symm.trans done)
  · intro fails
    cases failed : schema.declaredPlacements with
    | ok declared => exact absurd ⟨declared, failed⟩ fails
    | error cause =>
        have built : build default decls = .error cause :=
          build_eq_error.mpr (.inr ⟨schema, compiled, .inr ⟨checked, failed⟩⟩)
        have conflict : cause.fault.IsConflict := isConflict_of_declaredPlacements failed
        exact ⟨_, mapError_eq_error.mpr ⟨cause, built, rfl⟩, conflict⟩

/-- Of well-formed declarations, a conflict is reported exactly if the place of a type is
ambiguous or looks so. -/
theorem conflict_iff (sound : ¬ IllFormed decls) (default : Option String) :
    (∃ error, compile default decls = .error error ∧ error.fault.IsConflict) ↔
      ∃ type ∈ decls, Ambiguous decls type default ∨ Misread decls type default := by
  obtain ⟨schema, compiled, checked⟩ := passes_of_not_illFormed sound
  have starts := starts_of_ofDecls compiled
  rw [compile_conflict_iff compiled checked, declaredPlacements_succeeds_iff]
  simp only [ambiguous_or_misread_iff, ← disagree_iff sound starts]
  push Not
  rfl

theorem not_illFormed_of_conflict {error : SchemaError}
    (failed : compile default decls = .error error) (conflict : error.fault.IsConflict) :
    ¬ IllFormed decls := by
  intro wrong
  obtain ⟨other, failed', noConflict⟩ := (compile_rejects_iff default decls).1.mpr wrong
  obtain rfl := Except.error.inj (failed.symm.trans failed')
  exact noConflict conflict

end

namespace Kennel

def pets (first second : Placement) : TypeDecl :=
  ((TypeDecl.named "Query").withField
    { (FieldDecl.named "a" "Pet").many with placement := first }).withField
      { (FieldDecl.named "b" "Pet").many with placement := second }

/-- Pets have a place of their own and are listed in two others. -/
def settled : List TypeDecl :=
  [pets (.full "db" "Animals") (.full "db" "Creatures"), (TypeDecl.named "Pet").located "db" "Pets"]

/-- Pets are listed in one place, but only one of the fields names the default database. -/
def filled : List TypeDecl :=
  [pets ⟨none, some "Pets"⟩ (.full "app" "Pets"), .named "Pet"]

def conflict (first second : String) : SchemaError :=
  ⟨[compilation, "Type: Query", "Field: b"], .conflictingLocation "Pet" first second⟩

theorem settled_fails :
    compile none settled = .error (conflict "db/Animals" "db/Creatures") := by
  simp only [compile, build, ofDecls, compileTypes, TypeDecl.compile, mergeSort_eq_insertionSort]
  rfl

theorem filled_fails : compile (some "app") filled = .error (conflict "Pets" "app/Pets") := by
  simp only [compile, build, ofDecls, compileTypes, TypeDecl.compile, mergeSort_eq_insertionSort]
  rfl

theorem lists_pet {first second : Placement} {others : List TypeDecl} {decl : FieldDecl}
    (inside : decl ∈ (pets first second).fields) (contained : decl.placement.container.isSome)
    (returns : decl.returnTypename = "Pet") :
    Lists (pets first second :: others) (.named "Pet") decl :=
  ⟨_, .head _, inside, contained, returns⟩

theorem conflict_iff_filled : ¬ IllFormed filled ∧
    ∃ error, compile (some "app") filled = .error error ∧ error.fault.IsConflict := by
  have sound := not_illFormed_of_conflict filled_fails ⟨_, _, _, rfl⟩
  have misread : Misread filled (.named "Pet") (some "app") :=
    .filled rfl (lists_pet (.head _) rfl rfl) (lists_pet (.tail _ (.head _)) rfl rfl) rfl rfl rfl
  exact ⟨sound, (conflict_iff sound (some "app")).mpr ⟨_, .tail _ (.head _), .inr misread⟩⟩

/-- A conflict is reported of a type that inherits nothing. -/
theorem conflict_without_ambiguity : ¬ ∀ (default : Option String) (decls : List TypeDecl),
    ¬ IllFormed decls →
      ((∃ error, compile default decls = .error error ∧ error.fault.IsConflict) ↔
        ∃ type ∈ decls, Ambiguous decls type default) := by
  intro warranted
  have isConflict : (conflict "db/Animals" "db/Creatures").fault.IsConflict := ⟨_, _, _, rfl⟩
  have sound := not_illFormed_of_conflict settled_fails isConflict
  obtain ⟨type, member, own, first, second, listed, _⟩ :=
    (warranted none settled sound).mp ⟨_, settled_fails, isConflict⟩
  obtain ⟨holder, holds, inside, _, returns⟩ := listed
  have returned : ∀ holder ∈ settled, ∀ decl ∈ holder.fields, decl.returnTypename = "Pet" := by
    decide
  rw [returned holder holds first inside] at returns
  have contained : ∀ type ∈ settled, type.typename = "Pet" →
      type.placement.container = some "Pets" := by
    decide
  rw [contained type member returns.symm] at own
  contradiction

end Kennel

end Schema

end DocGraph
