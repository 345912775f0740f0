import DocGraph.Query.Parameters
import Mathlib.Data.List.Basic
import Mathlib.Data.List.Induction
import Mathlib.Data.List.Pairwise
import Std.Data.String.ToNat

namespace DocGraph.Parameters

open Json

variable {parameters : Parameters}

theorem nameAt_injective : Function.Injective nameAt := by
  intro left right same
  have digits : Nat.repr (left + 1) = Nat.repr (right + 1) := String.append_right_inj _ |>.mp same
  have places := Nat.repr_injective digits
  omega

theorem mem_entries {entry : Parameter} :
    entry ∈ parameters.entries ↔
      ∃ place : Nat, parameters.values[place]? = some entry.value ∧ nameAt place = entry.name := by
  obtain ⟨name, value⟩ := entry
  constructor
  · intro member
    obtain ⟨⟨held, place⟩, there, same⟩ := List.mem_map.mp member
    obtain ⟨rfl, rfl⟩ : nameAt place = name ∧ held = value := by simpa using same
    exact ⟨place, List.mk_mem_zipIdx_iff_getElem?.mp there, rfl⟩
  · intro placed
    obtain ⟨place, there, rfl⟩ := placed
    exact List.mem_map.mpr ⟨(value, place), List.mk_mem_zipIdx_iff_getElem?.mpr there, rfl⟩

/-- A name that stands for a value, up to equality of values, and for no other. -/
def Binds (parameters : Parameters) (name : String) (value : Value) : Prop :=
  ∃ entry ∈ parameters.entries, entry.name = name ∧ entry.value.same value = true ∧
    ∀ other ∈ parameters.entries, other.name = name → other = entry

theorem eq_of_name_eq {entry other : Parameter} (member : entry ∈ parameters.entries)
    (member' : other ∈ parameters.entries) (same : other.name = entry.name) : other = entry := by
  obtain ⟨place, there, named⟩ := mem_entries.mp member
  obtain ⟨place', there', named'⟩ := mem_entries.mp member'
  have places : place' = place := nameAt_injective (by rw [named, named', same])
  rw [places, there, Option.some.injEq] at there'
  obtain ⟨name, value⟩ := entry
  obtain ⟨name', value'⟩ := other
  simp_all

theorem same_of_place? {value : Value} {place : Nat}
    (placed : parameters.place? value = some place) :
    ∃ held, parameters.values[place]? = some held ∧ held.same value = true := by
  obtain ⟨inside, same, _⟩ := List.findIdx?_eq_some_iff_getElem.mp placed
  exact ⟨parameters.values[place], List.getElem?_eq_getElem inside, same⟩

theorem binds_of_nameOf? {name : String} {value : Value}
    (named : parameters.nameOf? value = some name) : parameters.Binds name value := by
  obtain ⟨place, placed, rfl⟩ := Option.map_eq_some_iff.mp named
  obtain ⟨held, there, same⟩ := same_of_place? placed
  have member : ⟨nameAt place, held⟩ ∈ parameters.entries := mem_entries.mpr ⟨place, there, rfl⟩
  exact ⟨_, member, rfl, same, fun other member' => eq_of_name_eq member member'⟩

theorem names_entries (parameters : Parameters) :
    parameters.entries.map (·.name) = (List.range parameters.size).map nameAt := by
  rw [List.range_eq_range', size, ← List.zipIdx_map_snd 0 parameters.values]
  simp only [entries, List.map_map]
  rfl

theorem nameAt_mem_names {place : Nat} :
    nameAt place ∈ parameters.entries.map (·.name) ↔ place < parameters.size := by
  rw [names_entries, List.mem_map_of_injective nameAt_injective, List.mem_range]

theorem lt_size_of_place? {value : Value} {place : Nat}
    (placed : parameters.place? value = some place) : place < parameters.size := by
  obtain ⟨held, there, _⟩ := same_of_place? placed
  exact (List.getElem?_eq_some_iff.mp there).1

/-- A value that has a parameter keeps it; any other gets the next one. -/
theorem add_cases (parameters : Parameters) (value : Value) :
    (∃ place, parameters.place? value = some place ∧ parameters.add value = parameters) ∨
      parameters.place? value = none ∧
        parameters.add value = ⟨parameters.values ++ [value]⟩ := by
  cases placed : parameters.place? value with
  | some place => exact .inl ⟨place, rfl, by simp [add, slot, placed]⟩
  | none => exact .inr ⟨rfl, by simp [add, slot, placed]⟩

theorem place?_append (parameters : Parameters) (last value : Value) :
    (⟨parameters.values ++ [last]⟩ : Parameters).place? value =
      (parameters.place? value).or
        (if last.same value = true then some parameters.size else none) := by
  simp only [place?, size, List.findIdx?_append, List.findIdx?_cons, List.findIdx?_nil]
  split <;> simp

theorem eraseDups_concat {α : Type} [DecidableEq α] (list : List α) (last : α) :
    (list ++ [last]).eraseDups =
      if last ∈ list then list.eraseDups else list.eraseDups ++ [last] := by
  rw [List.eraseDups_append, List.removeAll]
  split
  · next member => simp [member]
  · next other => simp [other, List.eraseDups_cons]

/-- Parameters are those of a list of values: one for each distinct value, numbered in the
order in which the values first occur. -/
structure Numbers (parameters : Parameters) (values : List Value) : Prop where
  distinct : parameters.values.Pairwise fun value other => value.same other = false
  named : ∀ value ∈ values, (parameters.nameOf? value).isSome = true
  inOrder : (values.filterMap parameters.nameOf?).eraseDups = parameters.entries.map (·.name)

theorem Numbers.add {values : List Value} (numbers : parameters.Numbers values) (value : Value) :
    (parameters.add value).Numbers (values ++ [value]) := by
  rcases parameters.add_cases value with ⟨place, placed, kept⟩ | ⟨unplaced, grown⟩
  · have here : parameters.nameOf? value = some (nameAt place) := by rw [nameOf?, placed]; rfl
    have used : nameAt place ∈ values.filterMap parameters.nameOf? := by
      rw [← List.mem_eraseDups, numbers.inOrder]
      exact nameAt_mem_names.mpr (lt_size_of_place? placed)
    rw [kept]
    refine ⟨numbers.distinct, fun other member => ?_, ?_⟩
    · rcases List.mem_append.mp member with old | new
      · exact numbers.named other old
      · rw [List.mem_singleton.mp new, here]
        rfl
    · rw [List.filterMap_append, List.filterMap_cons_some here, List.filterMap_nil,
        eraseDups_concat, if_pos used, numbers.inOrder]
  · have placeOf := parameters.place?_append value
    have old : ∀ other ∈ values,
        (⟨parameters.values ++ [value]⟩ : Parameters).nameOf? other = parameters.nameOf? other := by
      intro other member
      obtain ⟨name, named⟩ := Option.isSome_iff_exists.mp (numbers.named other member)
      obtain ⟨place, placed, _⟩ := Option.map_eq_some_iff.mp named
      rw [nameOf?, nameOf?, placeOf, placed, Option.some_or]
    have new : (⟨parameters.values ++ [value]⟩ : Parameters).nameOf? value =
        some (nameAt parameters.size) := by
      rw [nameOf?, placeOf, unplaced, Value.same_refl]
      rfl
    have unused : nameAt parameters.size ∉ values.filterMap parameters.nameOf? := by
      rw [← List.mem_eraseDups, numbers.inOrder, nameAt_mem_names]
      exact Nat.lt_irrefl _
    rw [grown]
    refine ⟨List.pairwise_append.mpr ⟨numbers.distinct, List.pairwise_singleton .., ?_⟩, ?_, ?_⟩
    · intro held member other here
      rw [List.mem_singleton.mp here]
      simpa using List.findIdx?_eq_none_iff.mp unplaced held member
    · intro other member
      rcases List.mem_append.mp member with here | here
      · rw [old other here]
        exact numbers.named other here
      · rw [List.mem_singleton.mp here, new]
        rfl
    · rw [List.filterMap_append, List.filterMap_cons_some new, List.filterMap_nil,
        List.filterMap_congr old, eraseDups_concat, if_neg unused, numbers.inOrder, names_entries,
        names_entries]
      simp [size, List.range_succ]

theorem numbers_foldl_add (values : List Value) :
    (values.foldl Parameters.add empty).Numbers values := by
  induction values using List.reverseRecOn with
  | nil => exact ⟨.nil, fun _ member => absurd member List.not_mem_nil, rfl⟩
  | append_singleton values value ih =>
      rw [List.foldl_append]
      exact ih.add value

theorem numbers_ofFilters (filters : List Filter) :
    (ofFilters filters).Numbers ((Filter.testsOf filters).map (·.value)) :=
  numbers_foldl_add _

theorem Numbers.entries_distinct {values : List Value} (numbers : parameters.Numbers values) :
    parameters.entries.Pairwise fun entry other => entry.value.same other.value = false := by
  have apart := numbers.distinct
  rw [← List.zipIdx_map_fst 0 parameters.values, List.pairwise_map] at apart
  exact List.pairwise_map.mpr apart

theorem Numbers.eq_of_same {values : List Value} (numbers : parameters.Numbers values)
    {entry other : Parameter} (member : entry ∈ parameters.entries)
    (member' : other ∈ parameters.entries) (same : other.value.same entry.value = true) :
    other = entry := by
  by_contra different
  have symmetric : Std.Symm fun entry other : Parameter =>
      entry.value.same other.value = false :=
    ⟨fun entry other apart => Bool.eq_false_iff.mpr fun same =>
      Bool.eq_false_iff.mp apart (Value.same_symm same)⟩
  have apart := numbers.entries_distinct.forall member' member different
  exact Bool.eq_false_iff.mp apart same

/-- Parameters are numbered without gaps, no two have the same value, and each test has the
value of exactly one of them. -/
structure Covers (parameters : Parameters) (tests : List Test) : Prop where
  names : parameters.entries.map (·.name) = (List.range parameters.entries.length).map nameAt
  distinct : parameters.entries.Pairwise fun entry other => entry.value.same other.value = false
  one : ∀ test ∈ tests, ∃ entry ∈ parameters.entries, entry.value.same test.value = true ∧
    ∀ other ∈ parameters.entries, other.value.same test.value = true → other = entry

theorem covers_ofFilters (filters : List Filter) :
    (ofFilters filters).Covers (Filter.testsOf filters) := by
  have numbers := numbers_ofFilters filters
  refine ⟨?_, numbers.entries_distinct, fun test member => ?_⟩
  · rw [names_entries]
    simp [entries, size]
  · obtain ⟨name, named⟩ := Option.isSome_iff_exists.mp
      (numbers.named _ (List.mem_map_of_mem member))
    obtain ⟨entry, listed, _, same, _⟩ := binds_of_nameOf? named
    exact ⟨entry, listed, same, fun other listed' same' =>
      numbers.eq_of_same listed listed' (Value.same_trans same' (Value.same_symm same))⟩

end DocGraph.Parameters
