import DocGraph.Proofs.Json.KeyOrder
import DocGraph.Proofs.Number.TotalOrder
import DocGraph.Proofs.Schema.Compiled
import DocGraph.Query.Sort
import Mathlib.Data.String.Basic

namespace DocGraph

open Json

/-- Steps all succeed with the results of the list. -/
theorem mapM_eq_ok_iff {ε α β : Type} {step : α → Except ε β} {list : List α} {results : List β} :
    list.mapM step = .ok results ↔
      List.Forall₂ (fun item result => step item = .ok result) list results := by
  constructor
  · exact forall₂_of_mapM_ok
  · intro each
    induction each with
    | nil => rfl
    | cons stepped _ ih => rw [List.mapM_cons, stepped, ih]; rfl

theorem mapM_eq_error_iff {ε α β : Type} {step : α → Except ε β} {list : List α} {fault : ε} :
    list.mapM step = .error fault ↔ ∃ before item after, list = before ++ item :: after ∧
      step item = .error fault ∧ ∀ earlier ∈ before, ∃ result, step earlier = .ok result := by
  rw [← fault?_eq_some, fault?_mapM, List.findSome?_eq_some_iff]
  simp only [fault?_eq_some, fault?_eq_none]

namespace SortKey

def write (key : SortKey) : String := key.field ++ "_" ++ key.direction.name

/-- The two directions end a key differently. -/
theorem ascending_ne_descending (front back : List Char) :
    front ++ "_DESC".toList ≠ back ++ "_ASC".toList := by
  intro same
  have backwards := congrArg List.reverse same
  simp at backwards

theorem parse_write (key : SortKey) (nonempty : key.field ≠ "") : parse key.write = .ok key := by
  obtain ⟨field, direction⟩ := key
  have hasField : field.toList.isEmpty = false :=
    List.isEmpty_eq_false_iff.mpr (mt String.toList_eq_nil_iff.mp nonempty)
  cases direction with
  | ascending =>
      have written : (write ⟨field, .ascending⟩).toList = field.toList ++ "_ASC".toList := by
        simp [write, Direction.name]
      rw [parse, Text.beforeEnd?_eq_some_iff.mpr written]
      simp [hasField]
  | descending =>
      have written : (write ⟨field, .descending⟩).toList = field.toList ++ "_DESC".toList := by
        simp [write, Direction.name]
      have other : Text.beforeEnd? "_ASC".toList (write ⟨field, .descending⟩).toList = none := by
        rw [written]
        exact Text.beforeEnd?_eq_none_iff.mpr (ascending_ne_descending _)
      rw [parse, other, Text.beforeEnd?_eq_some_iff.mpr written]
      simp [hasField]

/-- A key that is not written as a field with a direction is malformed. -/
theorem parse_of_unwritten {written : String}
    (unwritten : ∀ key : SortKey, key.field ≠ "" → key.write ≠ written) :
    parse written = .error (.malformedSortKey written) := by
  have fieldless : ∀ (field : List Char) (direction : Direction),
      written.toList = field ++ '_' :: direction.name.toList → field.isEmpty = true := by
    intro field direction ends
    apply Classical.byContradiction
    intro nonempty
    have hasField : String.ofList field ≠ "" := by
      intro missing
      exact nonempty (List.isEmpty_iff.mpr (String.ofList_eq_empty_iff.mp missing))
    apply unwritten ⟨String.ofList field, direction⟩ hasField
    apply String.toList_inj.mp
    rw [ends]
    simp [write]
  rw [parse]
  cases ascends : Text.beforeEnd? "_ASC".toList written.toList with
  | some field =>
      exact if_pos (fieldless field .ascending (Text.beforeEnd?_eq_some_iff.mp ascends))
  | none =>
      cases descends : Text.beforeEnd? "_DESC".toList written.toList with
      | some field =>
          exact if_pos (fieldless field .descending (Text.beforeEnd?_eq_some_iff.mp descends))
      | none => rfl

theorem parse_eq_ok_iff {written : String} {key : SortKey} :
    parse written = .ok key ↔ key.field ≠ "" ∧ key.write = written := by
  constructor
  · intro parsed
    by_cases known : ∃ key : SortKey, key.field ≠ "" ∧ key.write = written
    · obtain ⟨other, nonempty, rfl⟩ := known
      rw [parse_write other nonempty] at parsed
      cases parsed
      exact ⟨nonempty, rfl⟩
    · rw [parse_of_unwritten fun key nonempty same => known ⟨key, nonempty, same⟩] at parsed
      cases parsed
  · intro parts
    obtain ⟨nonempty, rfl⟩ := parts
    exact parse_write key nonempty

theorem parse_eq_error_iff {written : String} {error : QueryError} :
    parse written = .error error ↔ error = .malformedSortKey written ∧
      ∀ key : SortKey, key.field ≠ "" → key.write ≠ written := by
  constructor
  · intro refused
    have unwritten : ∀ key : SortKey, key.field ≠ "" → key.write ≠ written := by
      intro key nonempty same
      rw [parse_eq_ok_iff.mpr ⟨nonempty, same⟩] at refused
      cases refused
    rw [parse_of_unwritten unwritten] at refused
    cases refused
    exact ⟨rfl, unwritten⟩
  · intro malformed
    obtain ⟨rfl, unwritten⟩ := malformed
    exact parse_of_unwritten unwritten

end SortKey

namespace RankedSortKey

/-- A member of a sort object that ranks a key: the key is written with its direction, and the
priority is a number, which counts as a double. -/
inductive Ranks : String × Value → RankedSortKey → Prop
  | member {key : SortKey} {priority : Number} (nonempty : key.field ≠ "") :
      Ranks (key.write, .number priority) ⟨priority.toDouble, key.write, key⟩

/-- The error of a member that ranks no key. Its key matters only where its priority is a
number. -/
inductive Refuses : String × Value → QueryError → Prop
  | priority {written : String} {value : Value} (other : ∀ number, value ≠ .number number) :
      Refuses (written, value) (.invalidSort (.priorityNotANumber written))
  | key {written : String} {priority : Number}
      (malformed : ∀ key : SortKey, key.field ≠ "" → key.write ≠ written) :
      Refuses (written, .number priority) (.malformedSortKey written)

theorem ofMember_eq_ok_iff {member : String × Value} {entry : RankedSortKey} :
    ofMember member.1 member.2 = .ok entry ↔ Ranks member entry := by
  constructor
  · intro read
    obtain ⟨written, value⟩ := member
    cases value with
    | number priority =>
        obtain ⟨key, parsed, rfl⟩ := map_eq_ok.mp read
        obtain ⟨nonempty, rfl⟩ := SortKey.parse_eq_ok_iff.mp parsed
        exact .member nonempty
    | _ => cases read
  · intro ranks
    cases ranks with
    | @member key priority nonempty =>
        exact map_eq_ok.mpr ⟨key, SortKey.parse_write key nonempty, rfl⟩

theorem ofMember_eq_error_iff {member : String × Value} {error : QueryError} :
    ofMember member.1 member.2 = .error error ↔ Refuses member error := by
  constructor
  · intro refused
    obtain ⟨written, value⟩ := member
    cases value with
    | number priority =>
        rw [← fault?_eq_some, ofMember, fault?_map, fault?_eq_some] at refused
        obtain ⟨rfl, malformed⟩ := SortKey.parse_eq_error_iff.mp refused
        exact .key malformed
    | _ =>
        cases refused
        exact .priority (by simp)
  · intro refuses
    cases refuses with
    | @priority written value other =>
        cases value with
        | number priority => exact absurd rfl (other priority)
        | _ => rfl
    | @key written priority malformed =>
        rw [← fault?_eq_some, ofMember, fault?_map, SortKey.parse_of_unwritten malformed]
        rfl

/-- The more important entry: of lower priority, or written with the lesser text where
priorities tie. -/
def Before (left right : RankedSortKey) : Prop :=
  left.priority.Precedes right.priority ∨
    left.priority = right.priority ∧ left.written < right.written

theorem before_iff {left right : RankedSortKey} : left.Before right ↔
    left.priority.orderKey < right.priority.orderKey ∨
      left.priority.orderKey = right.priority.orderKey ∧ left.written < right.written := by
  rw [Before, Double.orderKey_lt_iff, Double.orderKey_inj]

theorem Before.asymm {left right : RankedSortKey} (before : left.Before right) :
    ¬right.Before left := by
  rw [before_iff] at before ⊢
  intro behind
  rcases before with less | ⟨same, less⟩
  · omega
  · rcases behind with greater | ⟨_, greater⟩
    · omega
    · exact String.lt_asymm less greater

theorem precedes_iff {left right : RankedSortKey} : precedes left right = true ↔
    left.priority.orderKey < right.priority.orderKey ∨
      left.priority.orderKey = right.priority.orderKey ∧ left.written ≤ right.written := by
  simp [precedes]

theorem precedes_trans (first second third : RankedSortKey)
    (before : precedes first second = true) (behind : precedes second third = true) :
    precedes first third = true := by
  rw [precedes_iff] at before behind ⊢
  rcases before with less | ⟨same, le⟩
  · left
    omega
  · rcases behind with less | ⟨same', le'⟩
    · left
      omega
    · exact .inr ⟨same.trans same', String.le_trans le le'⟩

theorem precedes_total (left right : RankedSortKey) :
    (precedes left right || precedes right left) = true := by
  rw [Bool.or_eq_true, precedes_iff, precedes_iff]
  have texts := String.le_total left.written right.written
  by_cases same : left.priority.orderKey = right.priority.orderKey
  · rcases texts with le | le
    · exact .inl (.inr ⟨same, le⟩)
    · exact .inr (.inr ⟨same.symm, le⟩)
  · have apart : left.priority.orderKey < right.priority.orderKey ∨
        right.priority.orderKey < left.priority.orderKey := by omega
    exact apart.imp .inl .inl

/-- Entries that are written differently are never tied. -/
theorem pairwise_mergeSort {entries : List RankedSortKey}
    (distinct : (entries.map (·.written)).Nodup) :
    (entries.mergeSort precedes).Pairwise Before := by
  have sorted := List.pairwise_mergeSort precedes_trans precedes_total entries
  have apart : ((entries.mergeSort precedes).map (·.written)).Nodup :=
    ((List.mergeSort_perm entries precedes).map _).nodup_iff.mpr distinct
  refine (sorted.and (List.pairwise_map.mp apart)).imp fun ordered => ?_
  obtain ⟨before, different⟩ := ordered
  rw [before_iff]
  rcases precedes_iff.mp before with less | ⟨same, le⟩
  · exact .inl less
  · exact .inr ⟨same, lt_of_le_of_ne le different⟩

theorem eq_of_perm {left right : List RankedSortKey} (permuted : left.Perm right)
    (ordered : left.Pairwise Before) (ordered' : right.Pairwise Before) : left = right :=
  List.Perm.eq_of_pairwise (fun _ _ _ _ before behind => absurd behind before.asymm) ordered
    ordered' permuted

theorem Ranks.written_eq {member : String × Value} {entry : RankedSortKey}
    (ranks : Ranks member entry) : entry.written = member.1 := by
  cases ranks
  rfl

theorem exists_entries_iff {members : List (String × Value)} :
    (∃ entries, List.Forall₂ Ranks members entries) ↔
      ∀ member ∈ members, ∃ entry, Ranks member entry := by
  induction members with
  | nil => simp
  | cons first rest ih =>
      rw [List.forall_mem_cons, ← ih]
      constructor
      · intro ranked
        obtain ⟨entries, each⟩ := ranked
        cases each with
        | cons head tail => exact ⟨⟨_, head⟩, _, tail⟩
      · intro ranked
        obtain ⟨⟨_, head⟩, _, tail⟩ := ranked
        exact ⟨_, .cons head tail⟩

theorem map_written {members : List (String × Value)} {entries : List RankedSortKey}
    (each : List.Forall₂ Ranks members entries) :
    entries.map (·.written) = Keyed.keys members := by
  induction each with
  | nil => rfl
  | cons first _ ih => exact congrArg₂ List.cons first.written_eq ih

end RankedSortKey

namespace SortKey

open RankedSortKey (Ranks Refuses)

/-- What the members of a sort object are read as: their keys in the order of their entries, or
the error of the first member that ranks none. -/
inductive Reads (members : List (String × Value)) : Except QueryError (List SortKey) → Prop
  | ranked {entries ranked : List RankedSortKey} (each : List.Forall₂ Ranks members entries)
      (once : ranked.Perm entries) (ordered : ranked.Pairwise RankedSortKey.Before) :
      Reads members (.ok (ranked.map (·.key)))
  | refused {before after : List (String × Value)} {member : String × Value} {error : QueryError}
      (first : members = before ++ member :: after)
      (earlier : ∀ other ∈ before, ∃ entry, Ranks other entry) (refuses : Refuses member error) :
      Reads members (.error error)

theorem ofInput_object (members : List (String × Value)) :
    ofInput (.object members) =
      (members.mapM fun member => RankedSortKey.ofMember member.1 member.2).map fun entries =>
        (entries.mergeSort RankedSortKey.precedes).map (·.key) := by
  have steps : ofInput (.object members) = do
      let entries ← members.mapM fun member => RankedSortKey.ofMember member.1 member.2
      return (entries.mergeSort RankedSortKey.precedes).map (·.key) := rfl
  rw [steps]
  cases members.mapM fun member => RankedSortKey.ofMember member.1 member.2 <;> rfl

theorem ofInput_of_ranked {members : List (String × Value)} {entries : List RankedSortKey}
    (each : List.Forall₂ Ranks members entries) :
    ofInput (.object members) = .ok ((entries.mergeSort RankedSortKey.precedes).map (·.key)) := by
  have read : (members.mapM fun member => RankedSortKey.ofMember member.1 member.2) =
      .ok entries :=
    mapM_eq_ok_iff.mpr (each.imp fun _ _ => RankedSortKey.ofMember_eq_ok_iff.mpr)
  rw [ofInput_object, read]
  rfl

theorem ofInput_of_refused {members before after : List (String × Value)} {member : String × Value}
    {error : QueryError} (first : members = before ++ member :: after)
    (earlier : ∀ other ∈ before, ∃ entry, Ranks other entry) (refuses : Refuses member error) :
    ofInput (.object members) = .error error := by
  have failed : (members.mapM fun member => RankedSortKey.ofMember member.1 member.2) =
      .error error := by
    refine mapM_eq_error_iff.mpr ⟨before, member, after, first,
      RankedSortKey.ofMember_eq_error_iff.mpr refuses, fun other inside => ?_⟩
    obtain ⟨entry, ranks⟩ := earlier other inside
    exact ⟨entry, RankedSortKey.ofMember_eq_ok_iff.mpr ranks⟩
  rw [ofInput_object, failed]
  rfl

theorem reads_ofInput {members : List (String × Value)} (sorted : Keyed.Sorted members) :
    Reads members (ofInput (.object members)) := by
  cases read : members.mapM fun member => RankedSortKey.ofMember member.1 member.2 with
  | ok entries =>
      have each : List.Forall₂ Ranks members entries :=
        (mapM_eq_ok_iff.mp read).imp fun _ _ => RankedSortKey.ofMember_eq_ok_iff.mp
      have distinct : (entries.map (·.written)).Nodup := by
        rw [RankedSortKey.map_written each]
        exact List.Pairwise.imp String.ne_of_lt sorted
      rw [ofInput_of_ranked each]
      exact .ranked each (List.mergeSort_perm ..) (RankedSortKey.pairwise_mergeSort distinct)
  | error error =>
      obtain ⟨before, member, after, first, failed, earlier⟩ := mapM_eq_error_iff.mp read
      have ranked : ∀ other ∈ before, ∃ entry, Ranks other entry := by
        intro other inside
        obtain ⟨entry, read⟩ := earlier other inside
        exact ⟨entry, RankedSortKey.ofMember_eq_ok_iff.mp read⟩
      have refuses := RankedSortKey.ofMember_eq_error_iff.mp failed
      rw [ofInput_of_refused first ranked refuses]
      exact .refused first ranked refuses

theorem ofInput_of_reads {members : List (String × Value)}
    {outcome : Except QueryError (List SortKey)} (sorted : Keyed.Sorted members)
    (reads : Reads members outcome) : ofInput (.object members) = outcome := by
  cases reads with
  | @ranked entries ranked each once ordered =>
      have distinct : (entries.map (·.written)).Nodup := by
        rw [RankedSortKey.map_written each]
        exact List.Pairwise.imp String.ne_of_lt sorted
      have same := RankedSortKey.eq_of_perm (once.trans (List.mergeSort_perm ..).symm) ordered
        (RankedSortKey.pairwise_mergeSort distinct)
      rw [ofInput_of_ranked each, same]
  | refused first earlier refuses => exact ofInput_of_refused first earlier refuses

/-- A sort object has one outcome. -/
theorem ofInput_eq_iff {members : List (String × Value)}
    {outcome : Except QueryError (List SortKey)} (sorted : Keyed.Sorted members) :
    ofInput (.object members) = outcome ↔ Reads members outcome := by
  constructor
  · intro same
    rw [← same]
    exact reads_ofInput sorted
  · exact ofInput_of_reads sorted

/-- In a sort object that was read from a text, keys increase. -/
theorem ofInput_eq_iff_of_text {text : String} {members : List (String × Value)}
    {outcome : Except QueryError (List SortKey)}
    (read : Value.ofText? text = some (.object members)) :
    ofInput (.object members) = outcome ↔ Reads members outcome :=
  ofInput_eq_iff (Value.sorted_of_ofText? read)

/-- A sort object is accepted when every member ranks a key. -/
theorem exists_ofInput_iff {members : List (String × Value)} (sorted : Keyed.Sorted members) :
    (∃ keys, ofInput (.object members) = .ok keys) ↔
      ∀ member ∈ members, ∃ entry, Ranks member entry := by
  rw [← RankedSortKey.exists_entries_iff]
  constructor
  · intro accepted
    obtain ⟨keys, accepted⟩ := accepted
    cases (ofInput_eq_iff sorted).mp accepted with
    | ranked each _ _ => exact ⟨_, each⟩
  · intro ranked
    obtain ⟨entries, each⟩ := ranked
    exact ⟨_, ofInput_of_ranked each⟩

end SortKey

end DocGraph
