import DocGraph.Schema.Compile
import Mathlib.Data.List.Nodup
import Mathlib.Data.List.Sort

namespace DocGraph

section

variable {α : Type} {name : α → String} {list others : List α}

theorem name_le_trans (name : α → String) (first second third : α)
    (le : decide (name first ≤ name second) = true)
    (le' : decide (name second ≤ name third) = true) :
    decide (name first ≤ name third) = true := by
  simp only [decide_eq_true_eq] at le le' ⊢
  exact String.le_trans le le'

theorem name_le_total (name : α → String) (left right : α) :
    (decide (name left ≤ name right) || decide (name right ≤ name left)) = true := by
  simpa using String.le_total (name left) (name right)

theorem pairwise_mergeSort_name (name : α → String) (list : List α) :
    (list.mergeSort fun left right => name left ≤ name right).Pairwise
      fun left right => name left ≤ name right := by
  simpa using List.pairwise_mergeSort (name_le_trans name) (name_le_total name) list

theorem orderedInsert_append {order : α → α → Prop} [DecidableRel order] {before after : List α}
    {item : α} (less : ∀ other ∈ before, ¬ order item other)
    (least : ∀ other ∈ after, order item other) :
    (before ++ after).orderedInsert order item = before ++ item :: after := by
  induction before with
  | nil =>
      cases after with
      | nil => rfl
      | cons next later => exact List.orderedInsert_cons_of_le order later (least next (.head _))
  | cons first before ih =>
      have others : ∀ other ∈ before, ¬ order item other :=
        fun other inside => less other (.tail _ inside)
      rw [List.cons_append, List.orderedInsert_of_not_le order _ (less first (.head _)), ih others,
        List.cons_append]

/-- Equal names keep their order in both ways of sorting. -/
theorem mergeSort_eq_insertionSort (name : α → String) (list : List α) :
    (list.mergeSort fun left right => name left ≤ name right) =
      list.insertionSort fun left right => name left ≤ name right := by
  induction list with
  | nil => exact List.mergeSort_nil
  | cons item rest ih =>
      obtain ⟨before, after, whole, parts, less⟩ :=
        List.mergeSort_cons (name_le_trans name) (name_le_total name) item rest
      have sorted := pairwise_mergeSort_name name (item :: rest)
      rw [whole] at sorted
      have least := (List.pairwise_cons.mp (List.pairwise_append.mp sorted).2.1).1
      have front : ∀ other ∈ before, ¬ name item ≤ name other := by
        simpa only [Bool.not_eq_true', decide_eq_false_iff_not] using less
      rw [whole, List.insertionSort_cons, ← ih, parts, orderedInsert_append front least]

/-- What names tell apart has one order by name. -/
theorem mergeSort_eq_of_perm (permuted : list.Perm others)
    (toldApart : ∀ left ∈ list, ∀ right ∈ list, name left = name right → left = right) :
    (list.mergeSort fun left right => name left ≤ name right) =
      others.mergeSort fun left right => name left ≤ name right := by
  have together := (List.mergeSort_perm list fun left right => name left ≤ name right).trans
    (permuted.trans (List.mergeSort_perm others fun left right => name left ≤ name right).symm)
  refine together.eq_of_pairwise (fun left right member member' le ge => ?_)
    (pairwise_mergeSort_name name list) (pairwise_mergeSort_name name others)
  have here := List.mem_mergeSort.mp member
  have there := permuted.mem_iff.mpr (List.mem_mergeSort.mp member')
  exact toldApart left here right there (String.le_antisymm le ge)

/-- The first repeated name depends on the names only. -/
theorem firstRepeated?_eq_of_perm (permuted : (list.map name).Perm (others.map name)) :
    firstRepeated? ((list.mergeSort fun left right => name left ≤ name right).map name) =
      firstRepeated? ((others.mergeSort fun left right => name left ≤ name right).map name) := by
  have inOrder : ∀ list : List α,
      (list.mergeSort fun left right => name left ≤ name right).map name =
        (list.map name).mergeSort fun left right => id left ≤ id right :=
    fun _ => List.map_mergeSort fun _ _ _ _ => rfl
  have sameOrder := @mergeSort_eq_of_perm String id _ _ permuted fun _ _ _ _ same => same
  rw [inOrder, inOrder, sameOrder]

/-- In a sorted list, a repeated name stands right behind its equal. -/
theorem notMem_of_ne_next {first second : String} {rest : List String}
    (sorted : (first :: second :: rest).Pairwise (· ≤ ·)) (different : first ≠ second) :
    first ∉ second :: rest := by
  intro member
  obtain ⟨least, later⟩ := List.pairwise_cons.mp sorted
  have notLess : second ≤ first := by
    rcases List.mem_cons.mp member with same | member
    · exact absurd same different
    · exact (List.pairwise_cons.mp later).1 first member
  exact different (String.le_antisymm (least second (.head _)) notLess)

theorem nodup_of_firstRepeated? {names : List String} (sorted : names.Pairwise (· ≤ ·))
    (distinct : firstRepeated? names = none) : names.Nodup := by
  induction names using firstRepeated?.induct with
  | case1 rest second => simp [firstRepeated?] at distinct
  | case2 first second rest different ih =>
      rw [firstRepeated?, if_neg different] at distinct
      have alone := notMem_of_ne_next sorted different
      exact List.nodup_cons.mpr ⟨alone, ih (List.pairwise_cons.mp sorted).2 distinct⟩
  | case3 names short =>
      match names with
      | [] => exact .nil
      | [single] => exact List.nodup_singleton single
      | first :: second :: rest => exact absurd rfl (short first second rest)

/-- Without a repeated name, names tell apart. -/
theorem toldApart_of_firstRepeated?
    (distinct : firstRepeated?
      ((list.mergeSort fun left right => name left ≤ name right).map name) = none) :
    ∀ left ∈ list, ∀ right ∈ list, name left = name right → left = right := by
  have sorted := List.pairwise_map.mpr (pairwise_mergeSort_name name list)
  have nodup := nodup_of_firstRepeated? sorted distinct
  intro left member right member' same
  exact List.inj_on_of_nodup_map nodup (List.mem_mergeSort.mpr member)
    (List.mem_mergeSort.mpr member') same

end

namespace TypeDecl

/-- One declaration of a type with its fields in two orders. -/
structure Reordered (type other : TypeDecl) : Prop where
  typename : other.typename = type.typename
  placement : other.placement = type.placement
  isExternal : other.isExternal = type.isExternal
  fields : type.fields.Perm other.fields

theorem Reordered.compile_eq {type other : TypeDecl} (reordered : type.Reordered other) :
    type.compile = other.compile := by
  have repeated := firstRepeated?_eq_of_perm (reordered.fields.map (·.fieldname))
  simp only [compile, reordered.typename, reordered.placement, reordered.isExternal]
  cases found : firstRepeated? ((type.fields.mergeSort fun left right =>
      left.fieldname ≤ right.fieldname).map (·.fieldname)) with
  | some name => rw [← repeated, found]
  | none =>
      rw [← repeated, found, mergeSort_eq_of_perm reordered.fields
        (toldApart_of_firstRepeated? found)]

end TypeDecl

namespace Schema

open SchemaError

/-- One list of declarations with its types in two orders, and the fields of each type in
two orders. -/
def Reordered (decls others : List TypeDecl) : Prop :=
  ∃ moved, decls.Perm moved ∧ List.Forall₂ TypeDecl.Reordered moved others

/-- What compilation makes of a type by itself, under the name of the type. -/
def outcome (type : TypeDecl) : String × Except SchemaError Entity := (type.typename, type.compile)

theorem Reordered.outcomes {decls others : List TypeDecl} (reordered : Reordered decls others) :
    (decls.map outcome).Perm (others.map outcome) := by
  obtain ⟨moved, permuted, same⟩ := reordered
  have alike : moved.map outcome = others.map outcome := by
    rw [← List.forall₂_eq_eq_eq, List.forall₂_map_left_iff, List.forall₂_map_right_iff]
    refine same.imp fun type other reordered => ?_
    rw [outcome, outcome, reordered.compile_eq, reordered.typename]
  exact alike ▸ permuted.map outcome

theorem compileTypes_eq (types : List TypeDecl) :
    compileTypes types =
      (types.map outcome).mapM fun (typename, made) => made.mapError (inType typename) := by
  rw [List.mapM_map]
  rfl

theorem Reordered.ofDecls_eq {decls others : List TypeDecl} (reordered : Reordered decls others) :
    ofDecls decls = ofDecls others := by
  have names : (decls.map (·.typename)).Perm (others.map (·.typename)) := by
    simpa [outcome, Function.comp_def] using reordered.outcomes.map (·.1)
  have repeated := firstRepeated?_eq_of_perm names
  have sorted : ∀ types : List TypeDecl,
      (types.mergeSort fun left right => left.typename ≤ right.typename).map outcome =
        (types.map outcome).mergeSort fun left right => left.1 ≤ right.1 :=
    fun _ => List.map_mergeSort fun _ _ _ _ => rfl
  simp only [ofDecls, compileTypes_eq, sorted]
  cases found : firstRepeated? ((decls.mergeSort fun left right =>
      left.typename ≤ right.typename).map (·.typename)) with
  | some name => rw [← repeated, found]
  | none =>
      rw [← repeated, found, mergeSort_eq_of_perm reordered.outcomes]
      have toldApart := toldApart_of_firstRepeated? found
      intro left member right member' same
      obtain ⟨type, here, rfl⟩ := List.mem_map.mp member
      obtain ⟨other, there, rfl⟩ := List.mem_map.mp member'
      rw [toldApart type here other there same]

/-- Declarations in another order compile to the same schema or fail with the same error. -/
theorem compile_eq_of_reordered (defaultDatabase : Option String) {decls others : List TypeDecl}
    (reordered : Reordered decls others) :
    compile defaultDatabase decls = compile defaultDatabase others := by
  rw [compile, compile, build, build, reordered.ofDecls_eq]

/-- Documents that two fields put in two places. -/
def scattered : List TypeDecl := [
  ((TypeDecl.named "Store").withField ((FieldDecl.named "docs" "Doc").many.located "db" "A")
    ).withField (.named "name" "String"),
  (TypeDecl.named "Doc").withField ((FieldDecl.named "old" "Doc").many.located "db" "B")]

def scatteredAnew : List TypeDecl := [
  (TypeDecl.named "Doc").withField ((FieldDecl.named "old" "Doc").many.located "db" "B"),
  ((TypeDecl.named "Store").withField (.named "name" "String")).withField
    ((FieldDecl.named "docs" "Doc").many.located "db" "A")]

theorem compile_eq_of_reordered_scattered :
    Reordered scattered scatteredAnew ∧
      compile none scattered = .error ⟨
        ["Error while generating meta schema", "Type: Store", "Field: docs"],
        .conflictingLocation "Doc" "db/B" "db/A"⟩ ∧
      compile none scattered = compile none scatteredAnew := by
  have moves : Reordered scattered scatteredAnew :=
    ⟨[scattered[1], scattered[0]], .swap .., .cons ⟨rfl, rfl, rfl, .refl _⟩
      (.cons ⟨rfl, rfl, rfl, .swap ..⟩ .nil)⟩
  have refused : compile none scattered = .error ⟨
      ["Error while generating meta schema", "Type: Store", "Field: docs"],
      .conflictingLocation "Doc" "db/B" "db/A"⟩ := by
    simp only [compile, build, ofDecls, compileTypes, TypeDecl.compile, mergeSort_eq_insertionSort]
    rfl
  exact ⟨moves, refused, compile_eq_of_reordered none moves⟩

end Schema

end DocGraph
