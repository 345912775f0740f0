import DocGraph.Query.Filter

namespace DocGraph

theorem Operator.mark_notMem_name (operator : Operator) : '_' ∉ operator.name.toList := by
  cases operator <;> decide

theorem Operator.name_ne_lower (operator : Operator) : operator.name.toList ≠ "lower".toList := by
  cases operator <;> decide

namespace FilterKey

/-- The characters of a written key up to the lower mark. -/
def stem (key : FilterKey) : List Char :=
  key.field.toList ++ '_' :: key.comparison.operator.name.toList

theorem toList_write (key : FilterKey) :
    key.write.toList =
      key.stem ++ if key.comparison.ignoreCase then Comparison.lowerMark.toList else [] := by
  rw [write, Comparison.name]
  split <;> simp [stem]

/-- The parts of a stem are its own: an operator has no mark in its name. -/
theorem splitAtLast?_stem (key : FilterKey) :
    Text.splitAtLast? '_' key.stem = some (key.field.toList, key.comparison.operator.name.toList) :=
  Text.splitAtLast?_eq_some_iff.mpr ⟨rfl, Operator.mark_notMem_name _⟩

theorem stem_ne_lower (key : FilterKey) (before : List Char) :
    key.stem ≠ before ++ Comparison.lowerMark.toList := by
  intro same
  have cut : Text.splitAtLast? '_' key.stem = some (before, "lower".toList) :=
    Text.splitAtLast?_eq_some_iff.mpr ⟨same, by decide⟩
  rw [splitAtLast?_stem] at cut
  exact key.comparison.operator.name_ne_lower (congrArg Prod.snd (Option.some.inj cut))

theorem parse_write (key : FilterKey) (nonempty : key.field ≠ "") :
    parse key.write = .ok key := by
  obtain ⟨field, ⟨operator, ignoreCase⟩⟩ := key
  have hasField : field.toList.isEmpty = false :=
    List.isEmpty_eq_false_iff.mpr (mt String.toList_eq_nil_iff.mp nonempty)
  have cut := splitAtLast?_stem ⟨field, ⟨operator, ignoreCase⟩⟩
  rw [parse, toList_write]
  cases ignoreCase with
  | true =>
      have marked := Text.beforeEnd?_eq_some_iff.mpr
        (rfl : stem ⟨field, ⟨operator, true⟩⟩ ++ Comparison.lowerMark.toList = _)
      simp [marked, cut, hasField, Operator.ofName?_name]
  | false =>
      have unmarked := Text.beforeEnd?_eq_none_iff.mpr (stem_ne_lower ⟨field, ⟨operator, false⟩⟩)
      simp [unmarked, cut, hasField, Operator.ofName?_name]

/-- The key with the parts that the text before its lower mark is cut into. -/
def ofParts (written : String) (ignoreCase : Bool) :
    Option (List Char × List Char) → Except QueryError FilterKey
  | none => .error (.malformedKey written)
  | some (field, operator) =>
    if field.isEmpty then .error (.malformedKey written)
    else
      match Operator.ofName? (String.ofList operator) with
      | some operator => .ok ⟨String.ofList field, ⟨operator, ignoreCase⟩⟩
      | none => .error (.unknownOperator written (String.ofList operator))

/-- What a key is without one lower mark at its end, if it has one. -/
inductive Unmarked (written : String) : Bool → String → Prop
  | marked {rest : String} (ends : written = rest ++ Comparison.lowerMark) :
      Unmarked written true rest
  | plain (other : ∀ rest, written ≠ rest ++ Comparison.lowerMark) :
      Unmarked written false written

theorem exists_unmarked (written : String) :
    ∃ ignoreCase rest, Unmarked written ignoreCase rest := by
  by_cases ends : ∃ rest, written = rest ++ Comparison.lowerMark
  · obtain ⟨rest, ends⟩ := ends
    exact ⟨true, rest, .marked ends⟩
  · exact ⟨false, written, .plain (not_exists.mp ends)⟩

variable {written rest : String} {ignoreCase : Bool}

theorem parse_eq_ofParts (left : Unmarked written ignoreCase rest) :
    parse written = ofParts written ignoreCase (Text.splitAtLast? '_' rest.toList) := by
  cases left with
  | marked ends =>
      have marked : Text.beforeEnd? Comparison.lowerMark.toList written.toList =
          some rest.toList := by
        apply Text.beforeEnd?_eq_some_iff.mpr
        rw [ends, String.toList_append]
      rw [parse, marked]
      rfl
  | plain other =>
      have unmarked : Text.beforeEnd? Comparison.lowerMark.toList written.toList = none := by
        apply Text.beforeEnd?_eq_none_iff.mpr
        intro before ends
        apply other (String.ofList before)
        apply String.toList_inj.mp
        rw [String.toList_append, String.toList_ofList, ends]
      rw [parse, unmarked]
      rfl

/-- The parts that a key is cut into are those it is written with. -/
theorem write_of_parts {key : FilterKey}
    (accepted : ofParts written ignoreCase (Text.splitAtLast? '_' rest.toList) = .ok key) :
    key.field ≠ "" ∧
      key.write = rest ++ if ignoreCase then Comparison.lowerMark else "" := by
  cases cut : Text.splitAtLast? '_' rest.toList with
  | none => simp [cut, ofParts] at accepted
  | some parts =>
      obtain ⟨field, name⟩ := parts
      by_cases empty : field.isEmpty = true
      · simp [cut, ofParts, empty] at accepted
      · cases named : Operator.ofName? (String.ofList name) with
        | none => simp [cut, ofParts, empty, named] at accepted
        | some operator =>
            simp only [cut, ofParts, if_neg empty, named, Except.ok.injEq] at accepted
            subst accepted
            obtain ⟨whole, _⟩ := Text.splitAtLast?_eq_some_iff.mp cut
            constructor
            · intro missing
              exact empty (List.isEmpty_iff.mpr (String.ofList_eq_empty_iff.mp missing))
            · apply String.toList_inj.mp
              rw [toList_write, stem, Operator.name_of_ofName? named, String.toList_ofList,
                String.toList_ofList, ← whole, String.toList_append]
              cases ignoreCase <;> rfl

/-- A key is read exactly as it is written. -/
theorem parse_eq_ok_iff {key : FilterKey} :
    parse written = .ok key ↔ key.field ≠ "" ∧ key.write = written := by
  constructor
  · intro parsed
    obtain ⟨ignoreCase, rest, left⟩ := exists_unmarked written
    rw [parse_eq_ofParts left] at parsed
    obtain ⟨nonempty, whole⟩ := write_of_parts parsed
    cases left with
    | marked ends => exact ⟨nonempty, whole.trans ends.symm⟩
    | plain _ => exact ⟨nonempty, whole.trans (String.append_empty ..)⟩
  · intro parts
    obtain ⟨nonempty, rfl⟩ := parts
    exact parse_write key nonempty

/-- Before its lower mark the key has no underscore, or nothing before the last one. -/
def Fieldless (written : String) : Prop :=
  ∃ ignoreCase rest, Unmarked written ignoreCase rest ∧
    ('_' ∉ rest.toList ∨ ∃ name : String, '_' ∉ name.toList ∧ rest = "_" ++ name)

/-- The name is what stands behind the last underscore before the lower mark of the key. -/
def EndsIn (written name : String) : Prop :=
  ∃ ignoreCase field, Unmarked written ignoreCase (field ++ "_" ++ name) ∧ '_' ∉ name.toList

theorem parse_of_fieldless (fieldless : Fieldless written) :
    parse written = .error (.malformedKey written) := by
  obtain ⟨ignoreCase, rest, left, uncut | ⟨name, last, rfl⟩⟩ := fieldless
  · rw [parse_eq_ofParts left, Text.splitAtLast?_eq_none_iff.mpr uncut]
    rfl
  · have cut : Text.splitAtLast? '_' ("_" ++ name).toList = some ([], name.toList) := by
      apply Text.splitAtLast?_eq_some_iff.mpr
      simp [last]
    rw [parse_eq_ofParts left, cut]
    rfl

/-- A key with a field that is not read ends in no operator. -/
theorem parse_of_not_fieldless (fielded : ¬Fieldless written)
    (refused : ∀ key, parse written ≠ .ok key) :
    ∃ name, EndsIn written name ∧ parse written = .error (.unknownOperator written name) := by
  obtain ⟨ignoreCase, rest, left⟩ := exists_unmarked written
  cases cut : Text.splitAtLast? '_' rest.toList with
  | none =>
      have uncut := Text.splitAtLast?_eq_none_iff.mp cut
      exact absurd ⟨ignoreCase, rest, left, .inl uncut⟩ fielded
  | some parts =>
      obtain ⟨field, name⟩ := parts
      obtain ⟨whole, last⟩ := Text.splitAtLast?_eq_some_iff.mp cut
      obtain rfl : rest = String.ofList field ++ "_" ++ String.ofList name := by
        apply String.toList_inj.mp
        simp [whole]
      have absent : '_' ∉ (String.ofList name).toList := by rwa [String.toList_ofList]
      have nonempty : ¬field.isEmpty = true := by
        intro empty
        obtain rfl := List.isEmpty_iff.mp empty
        exact fielded ⟨ignoreCase, _, left, .inr ⟨_, absent, rfl⟩⟩
      have parsed := parse_eq_ofParts left
      rw [cut, ofParts, if_neg nonempty] at parsed
      cases named : Operator.ofName? (String.ofList name) with
      | some operator =>
          rw [named] at parsed
          exact absurd parsed (refused _)
      | none =>
          rw [named] at parsed
          exact ⟨_, ⟨ignoreCase, _, left, absent⟩, parsed⟩

/-- Keys are read unambiguously: each as the field and the comparison that it is written with,
and a key that nothing is written as is refused for what it lacks, a field or an operator. -/
theorem keys_unambiguous :
    (∀ written field comparison, parse written = .ok ⟨field, comparison⟩ ↔
      field ≠ "" ∧ written = field ++ "_" ++ comparison.name) ∧
    (∀ field comparison, field ≠ "" →
      parse (field ++ "_" ++ comparison.name) = .ok ⟨field, comparison⟩) ∧
    ∀ written,
      (parse written = .error (.malformedKey written) ↔ Fieldless written) ∧
      (¬Fieldless written → (∀ key, parse written ≠ .ok key) →
        ∃ name, EndsIn written name ∧
          parse written = .error (.unknownOperator written name)) := by
  refine ⟨fun written field comparison => ?_, fun field comparison nonempty => ?_,
    fun written => ⟨⟨fun refused => ?_, parse_of_fieldless⟩, parse_of_not_fieldless⟩⟩
  · rw [parse_eq_ok_iff, eq_comm (a := written)]
    rfl
  · exact parse_write ⟨field, comparison⟩ nonempty
  · apply Classical.byContradiction
    intro fielded
    have unread : ∀ key, parse written ≠ .ok key := by
      intro key read
      rw [refused] at read
      cases read
    obtain ⟨name, _, unknown⟩ := parse_of_not_fieldless fielded unread
    rw [refused] at unknown
    cases unknown

end FilterKey

end DocGraph
