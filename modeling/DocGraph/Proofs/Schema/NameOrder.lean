import DocGraph.Proofs.Schema.Reordering
import Mathlib.Data.List.Duplicate
import Mathlib.Data.String.Basic

namespace DocGraph

section

variable {α β : Type} {name : α → String} {list : List α} {check : α → Option β}

abbrev byName (name : α → String) (list : List α) : List α :=
  list.mergeSort fun left right => name left ≤ name right

theorem mem_byName {item : α} : item ∈ byName name list ↔ item ∈ list := List.mem_mergeSort

theorem perm_map_byName (name : α → String) (list : List α) :
    ((byName name list).map name).Perm (list.map name) :=
  (List.mergeSort_perm ..).map name

theorem findSome?_byName_eq_none :
    (byName name list).findSome? check = none ↔ ∀ item ∈ list, check item = none := by
  simp only [List.findSome?_eq_none_iff, mem_byName]

/-- Among items with distinct names, what is found first is found for the least name. -/
theorem findSome?_byName_eq_some (distinct : (list.map name).Nodup) {found : β} :
    (byName name list).findSome? check = some found ↔
      ∃ item ∈ list, check item = some found ∧
        ∀ other ∈ list, name other < name item → check other = none := by
  have sorted : (byName name list).Pairwise fun left right => name left ≤ name right :=
    pairwise_mergeSort_name name list
  have apart := (perm_map_byName name list).nodup_iff.mpr distinct
  rw [List.findSome?_eq_some_iff]
  constructor
  · rintro ⟨before, item, after, split, finds, earlier⟩
    have member : item ∈ list := mem_byName.mp (split ▸ List.mem_append_right _ (.head _))
    refine ⟨item, member, finds, fun other inside less => ?_⟩
    rw [split] at sorted
    rcases List.mem_append.mp (split ▸ mem_byName.mpr inside) with front | back
    · exact earlier other front
    · have least : name item ≤ name other := by
        rcases List.mem_cons.mp back with rfl | later
        · exact String.le_refl _
        · exact (List.pairwise_cons.mp (List.pairwise_append.mp sorted).2.1).1 other later
      exact absurd less (String.not_lt.mpr least)
  · rintro ⟨item, member, finds, earlier⟩
    obtain ⟨before, after, split⟩ := List.append_of_mem (mem_byName.mpr member)
    refine ⟨before, item, after, split, finds, fun other front => ?_⟩
    have inside : other ∈ list := mem_byName.mp (split ▸ List.mem_append_left _ front)
    rw [split] at sorted
    rw [split, List.map_append, List.map_cons] at apart
    have notGreater : name other ≤ name item :=
      (List.pairwise_append.mp sorted).2.2 other front item (.head _)
    have different : name other ≠ name item :=
      (List.nodup_append.mp apart).2.2 _ (List.mem_map_of_mem front) _ (.head _)
    exact earlier other inside (lt_of_le_of_ne notGreater different)

end

/-- In a sorted list, the first name next to its equal is the least repeated name. -/
theorem firstRepeated?_eq_some {names : List String} (sorted : names.Pairwise (· ≤ ·))
    {name : String} :
    firstRepeated? names = some name ↔
      names.Duplicate name ∧ ∀ other, names.Duplicate other → name ≤ other := by
  induction names using firstRepeated?.induct with
  | case1 first rest =>
      have least : ∀ other, (first :: first :: rest).Duplicate other → first ≤ other := by
        intro other twice
        rcases List.mem_cons.mp twice.mem with rfl | later
        · exact String.le_refl _
        · exact (List.pairwise_cons.mp sorted).1 other later
      have twice : (first :: first :: rest).Duplicate first := .cons_mem (.head _)
      simp only [firstRepeated?, if_true, Option.some.injEq]
      constructor
      · rintro rfl
        exact ⟨twice, least⟩
      · intro found
        exact String.le_antisymm (least name found.1) (found.2 first twice)
  | case2 first second rest different ih =>
      have alone := notMem_of_ne_next sorted different
      have later := (List.pairwise_cons.mp sorted).2
      have onward : ∀ other, (first :: second :: rest).Duplicate other ↔
          (second :: rest).Duplicate other := by
        intro other
        rw [List.duplicate_cons_iff]
        exact ⟨fun twice => twice.resolve_left fun here => alone (here.1 ▸ here.2), .inr⟩
      rw [firstRepeated?, if_neg different, ih later]
      simp only [onward]
  | case3 names short =>
      have none : ∀ other, ¬ names.Duplicate other := by
        rcases names with - | ⟨first, - | ⟨second, rest⟩⟩
        · exact List.not_duplicate_nil
        · exact fun other => List.not_duplicate_singleton other first
        · exact absurd rfl (short first second rest)
      have nothing : firstRepeated? names = Option.none := by
        rw [firstRepeated?]
        exact short
      simp [nothing, none]

section

variable {α : Type} {name : α → String} {list : List α}

theorem duplicate_map_byName {repeated : String} :
    ((byName name list).map name).Duplicate repeated ↔ (list.map name).Duplicate repeated := by
  rw [List.duplicate_iff_two_le_count, List.duplicate_iff_two_le_count,
    (perm_map_byName name list).count_eq]

theorem firstRepeated?_byName_eq_some {repeated : String} :
    firstRepeated? ((byName name list).map name) = some repeated ↔
      (list.map name).Duplicate repeated ∧
        ∀ other, (list.map name).Duplicate other → repeated ≤ other := by
  have sorted := List.pairwise_map.mpr (pairwise_mergeSort_name name list)
  simp only [firstRepeated?_eq_some sorted, duplicate_map_byName]

theorem firstRepeated?_byName_eq_none :
    firstRepeated? ((byName name list).map name) = none ↔ (list.map name).Nodup := by
  have sorted := List.pairwise_map.mpr (pairwise_mergeSort_name name list)
  rw [← (perm_map_byName name list).nodup_iff]
  constructor
  · exact nodup_of_firstRepeated? sorted
  · intro distinct
    cases found : firstRepeated? ((byName name list).map name) with
    | none => rfl
    | some repeated =>
        exact absurd distinct ((firstRepeated?_eq_some sorted).mp found).1.not_nodup

end

/-- The fault of a list that is checked in the order of its names: a repeated name, or else
what a check of one item finds. -/
def faultByName? {α ε : Type} (name : α → String) (repeated : String → ε) (check : α → Option ε)
    (list : List α) : Option ε :=
  match firstRepeated? ((byName name list).map name) with
  | some twice => some (repeated twice)
  | none => (byName name list).findSome? check

section

variable {α ε : Type} {name : α → String} {repeated : String → ε} {check : α → Option ε}
  {list : List α}

theorem faultByName?_eq_none : faultByName? name repeated check list = none ↔
    (list.map name).Nodup ∧ ∀ item ∈ list, check item = none := by
  unfold faultByName?
  split
  · next twice found =>
      have shared := (firstRepeated?_byName_eq_some.mp found).1.not_nodup
      simp [shared]
  · next found =>
      rw [findSome?_byName_eq_none]
      exact (and_iff_right (firstRepeated?_byName_eq_none.mp found)).symm

theorem faultByName?_eq_some {fault : ε} : faultByName? name repeated check list = some fault ↔
    (∃ twice, (list.map name).Duplicate twice ∧
      (∀ other, (list.map name).Duplicate other → twice ≤ other) ∧ repeated twice = fault) ∨
    (list.map name).Nodup ∧ ∃ item ∈ list, check item = some fault ∧
      ∀ other ∈ list, name other < name item → check other = none := by
  unfold faultByName?
  split
  · next twice found =>
      obtain ⟨shared, least⟩ := firstRepeated?_byName_eq_some.mp found
      constructor
      · intro same
        exact .inl ⟨twice, shared, least, Option.some.inj same⟩
      · rintro (⟨other, otherShared, otherLeast, rfl⟩ | ⟨distinct, _⟩)
        · rw [String.le_antisymm (least other otherShared) (otherLeast twice shared)]
        · exact absurd distinct shared.not_nodup
  · next found =>
      have distinct := firstRepeated?_byName_eq_none.mp found
      rw [findSome?_byName_eq_some distinct]
      constructor
      · exact fun first => .inr ⟨distinct, first⟩
      · rintro (⟨_, shared, _⟩ | ⟨_, first⟩)
        · exact absurd distinct shared.not_nodup
        · exact first

end

end DocGraph
