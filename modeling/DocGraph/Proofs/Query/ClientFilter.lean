import DocGraph.Proofs.Json.KeyOrder
import DocGraph.Query.Filter

namespace DocGraph

open Json

namespace ClientFilter

/-- The keys whose items are filters themselves. -/
def Combinator (key : String) : Prop := key = "and" ∨ key = "or"

instance (key : String) : Decidable (Combinator key) :=
  inferInstanceAs (Decidable (key = "and" ∨ key = "or"))

mutual

inductive Admissible : Value → Prop
  | null : Admissible .null
  | object {members : List (String × Value)}
      (each : ∀ key value, (key, value) ∈ members → AdmissibleMember key value) :
      Admissible (.object members)

inductive AdmissibleMember : String → Value → Prop
  | combinator {key : String} {items : List Value} (combines : Combinator key)
      (each : ∀ item, item ∈ items → Admissible item) : AdmissibleMember key (.array items)
  | leaf {key : FilterKey} {value : Value} (nonempty : key.field ≠ "")
      (compares : ¬Combinator key.write) : AdmissibleMember key.write value

end

/-- A member that compares something, below the steps that lead to its object. A
step goes from an object to an item of one of its combinators. -/
structure Leaf where
  steps : List (String × Nat)
  key : String
  value : Value

namespace Leaf

def path (leaf : Leaf) : List (String × Nat) := leaf.steps ++ [(leaf.key, 0)]

/-- The order of paths: that of the first steps in which they differ. -/
def Before (left right : Leaf) : Prop :=
  List.Lex (fun step other => step.1 < other.1 ∨ step.1 = other.1 ∧ step.2 < other.2)
    left.path right.path

def under (key : String) (place : Nat) (leaf : Leaf) : Leaf :=
  { leaf with steps := (key, place) :: leaf.steps }

end Leaf

inductive LeafAt : Value → Leaf → Prop
  | here {members : List (String × Value)} {key : String} {value : Value}
      (member : (key, value) ∈ members) (compares : ¬Combinator key) :
      LeafAt (.object members) ⟨[], key, value⟩
  | under {members : List (String × Value)} {key : String} {items : List Value} {item : Value}
      {place : Nat} {leaf : Leaf} (member : (key, .array items) ∈ members)
      (combines : Combinator key) (placed : items[place]? = some item)
      (inner : LeafAt item leaf) : LeafAt (.object members) (leaf.under key place)

mutual

/-- Whether a filter holds, given which of its leaves hold. -/
def holds (truth : Leaf → Bool) : Value → Bool
  | .object members => membersHold truth members
  | _ => true

def membersHold (truth : Leaf → Bool) : List (String × Value) → Bool
  | [] => true
  | (key, value) :: rest => memberHolds truth key value && membersHold truth rest

def memberHolds (truth : Leaf → Bool) (key : String) : Value → Bool
  | .array items =>
    if key = "and" then allItemsHold truth key 0 items
    else if key = "or" then anyItemHolds truth key 0 items
    else truth ⟨[], key, .array items⟩
  | value => truth ⟨[], key, value⟩

def allItemsHold (truth : Leaf → Bool) (key : String) : Nat → List Value → Bool
  | _, [] => true
  | place, item :: rest =>
    holds (fun leaf => truth (leaf.under key place)) item && allItemsHold truth key (place + 1) rest

def anyItemHolds (truth : Leaf → Bool) (key : String) : Nat → List Value → Bool
  | _, [] => false
  | place, item :: rest =>
    holds (fun leaf => truth (leaf.under key place)) item || anyItemHolds truth key (place + 1) rest

end

mutual

/-- The leaves of a filter in depth-first order. -/
def leaves : Value → List Leaf
  | .object members => membersLeaves members
  | _ => []

def membersLeaves : List (String × Value) → List Leaf
  | [] => []
  | (key, value) :: rest => memberLeaves key value ++ membersLeaves rest

def memberLeaves (key : String) : Value → List Leaf
  | .array items => if Combinator key then itemsLeaves key 0 items else [⟨[], key, .array items⟩]
  | value => if Combinator key then [] else [⟨[], key, value⟩]

def itemsLeaves (key : String) : Nat → List Value → List Leaf
  | _, [] => []
  | place, item :: rest => (leaves item).map (·.under key place) ++ itemsLeaves key (place + 1) rest

end

theorem Leaf.Before.under {left right : Leaf} (before : left.Before right) (key : String)
    (place : Nat) : (left.under key place).Before (right.under key place) :=
  List.Lex.cons before

theorem mem_membersLeaves {members : List (String × Value)} {leaf : Leaf} :
    leaf ∈ membersLeaves members ↔
      ∃ key value, (key, value) ∈ members ∧ leaf ∈ memberLeaves key value := by
  induction members with
  | nil => simp [membersLeaves]
  | cons member rest ih =>
      obtain ⟨key, value⟩ := member
      rw [membersLeaves, List.mem_append, ih]
      constructor
      · intro either
        rcases either with here | ⟨name, other, member, there⟩
        · exact ⟨key, value, .head _, here⟩
        · exact ⟨name, other, .tail _ member, there⟩
      · intro some
        obtain ⟨name, other, member, there⟩ := some
        rcases List.mem_cons.mp member with same | later
        · cases same
          exact .inl there
        · exact .inr ⟨name, other, later, there⟩

theorem mem_itemsLeaves {key : String} {items : List Value} {leaf : Leaf} (start : Nat) :
    leaf ∈ itemsLeaves key start items ↔
      ∃ place item inner, items[place]? = some item ∧ inner ∈ leaves item ∧
        leaf = inner.under key (start + place) := by
  induction items generalizing start with
  | nil => simp [itemsLeaves]
  | cons item rest ih =>
      rw [itemsLeaves, List.mem_append, List.mem_map, ih]
      constructor
      · intro either
        rcases either with ⟨inner, member, same⟩ | ⟨place, other, inner, placed, member, same⟩
        · exact ⟨0, item, inner, rfl, member, same.symm⟩
        · refine ⟨place + 1, other, inner, placed, member, ?_⟩
          rw [same, Nat.add_assoc, Nat.add_comm 1]
      · intro some
        obtain ⟨place, other, inner, placed, member, same⟩ := some
        cases place with
        | zero =>
            obtain rfl : item = other := by simpa using placed
            exact .inl ⟨inner, member, same.symm⟩
        | succ place =>
            refine .inr ⟨place, other, inner, by simpa using placed, member, ?_⟩
            rw [same, Nat.add_assoc, Nat.add_comm 1]

theorem mem_memberLeaves {key : String} {value : Value} {leaf : Leaf} :
    leaf ∈ memberLeaves key value ↔
      (¬Combinator key ∧ leaf = ⟨[], key, value⟩) ∨
        (Combinator key ∧ ∃ items, value = .array items ∧ leaf ∈ itemsLeaves key 0 items) := by
  by_cases combines : Combinator key
  · cases value <;> simp [memberLeaves, combines]
  · cases value <;> simp [memberLeaves, combines]

theorem mem_leaves_of_leafAt {value : Value} {leaf : Leaf} (there : LeafAt value leaf) :
    leaf ∈ leaves value := by
  induction there with
  | @here members key value member compares =>
      rw [leaves]
      exact mem_membersLeaves.mpr
        ⟨key, value, member, mem_memberLeaves.mpr (.inl ⟨compares, rfl⟩)⟩
  | @under members key items item place leaf member combines placed _ ih =>
      have inside : leaf.under key place ∈ itemsLeaves key 0 items :=
        (mem_itemsLeaves 0).mpr ⟨place, item, leaf, placed, ih, by rw [Nat.zero_add]⟩
      rw [leaves]
      exact mem_membersLeaves.mpr
        ⟨key, .array items, member, mem_memberLeaves.mpr (.inr ⟨combines, items, rfl, inside⟩)⟩

theorem sizeOf_item_lt {members : List (String × Value)} {key : String} {items : List Value}
    {item : Value} (member : (key, .array items) ∈ members) (inside : item ∈ items) :
    sizeOf item < sizeOf (Value.object members) := by
  have itemLt := List.sizeOf_lt_of_mem inside
  have memberLt := List.sizeOf_lt_of_mem member
  simp only [Prod.mk.sizeOf_spec, Value.array.sizeOf_spec] at memberLt
  simp only [Value.object.sizeOf_spec]
  omega

theorem leafAt_of_mem_leaves : ∀ (value : Value) {leaf : Leaf}, leaf ∈ leaves value →
    LeafAt value leaf
  | .object members, leaf, listed => by
      rw [leaves] at listed
      obtain ⟨key, value, member, there⟩ := mem_membersLeaves.mp listed
      rcases mem_memberLeaves.mp there with ⟨compares, rfl⟩ | ⟨combines, items, rfl, inside⟩
      · exact .here member compares
      · obtain ⟨place, item, inner, placed, known, rfl⟩ := (mem_itemsLeaves 0).mp inside
        rw [Nat.zero_add]
        exact .under member combines placed (leafAt_of_mem_leaves item known)
  | .null, _, listed | .boolean _, _, listed | .number _, _, listed | .string _, _, listed
  | .array _, _, listed => by simp [leaves] at listed
termination_by value => sizeOf value
decreasing_by exact sizeOf_item_lt member (List.mem_of_getElem? placed)

theorem mem_leaves_iff {value : Value} {leaf : Leaf} : leaf ∈ leaves value ↔ LeafAt value leaf :=
  ⟨leafAt_of_mem_leaves value, mem_leaves_of_leafAt⟩

theorem path_of_mem_memberLeaves {key : String} {value : Value} {leaf : Leaf}
    (listed : leaf ∈ memberLeaves key value) : ∃ place tail, leaf.path = (key, place) :: tail := by
  rcases mem_memberLeaves.mp listed with ⟨_, rfl⟩ | ⟨_, items, _, inside⟩
  · exact ⟨0, [], rfl⟩
  · obtain ⟨place, _, inner, _, _, rfl⟩ := (mem_itemsLeaves 0).mp inside
    exact ⟨0 + place, inner.path, rfl⟩

theorem itemsLeaves_before {key : String} {items : List Value} (start : Nat)
    (each : ∀ item ∈ items, (leaves item).Pairwise Leaf.Before) :
    (itemsLeaves key start items).Pairwise Leaf.Before := by
  induction items generalizing start with
  | nil => exact .nil
  | cons item rest ih =>
      rw [itemsLeaves, List.pairwise_append]
      have first := each item List.mem_cons_self
      have others := ih (start + 1) fun other member => each other (.tail _ member)
      refine ⟨first.map _ fun _ _ before => before.under key start, others, ?_⟩
      intro left mapped right later
      obtain ⟨inner, _, rfl⟩ := List.mem_map.mp mapped
      obtain ⟨place, _, other, _, _, rfl⟩ := (mem_itemsLeaves (start + 1)).mp later
      exact List.Lex.rel (.inr ⟨rfl, by omega⟩)

theorem membersLeaves_before {members : List (String × Value)} (sorted : Keyed.Sorted members)
    (each : ∀ key value, (key, value) ∈ members →
      (memberLeaves key value).Pairwise Leaf.Before) :
    (membersLeaves members).Pairwise Leaf.Before := by
  induction members with
  | nil => exact .nil
  | cons member rest ih =>
      obtain ⟨key, value⟩ := member
      obtain ⟨least, increasing⟩ := List.pairwise_cons.mp sorted
      rw [membersLeaves, List.pairwise_append]
      have first := each key value List.mem_cons_self
      have others := ih increasing fun name other member => each name other (.tail _ member)
      refine ⟨first, others, ?_⟩
      intro left here right later
      obtain ⟨name, other, member, there⟩ := mem_membersLeaves.mp later
      obtain ⟨place, tail, path⟩ := path_of_mem_memberLeaves here
      obtain ⟨place', tail', path'⟩ := path_of_mem_memberLeaves there
      have less : key < name := least name (List.mem_map_of_mem member)
      rw [Leaf.Before, path, path']
      exact List.Lex.rel (.inl less)

/-- Where keys increase, leaves are listed in the order of their paths. -/
theorem leaves_before : ∀ {value : Value}, value.KeysIncrease →
    (leaves value).Pairwise Leaf.Before
  | .object members, .object sorted each => by
      rw [leaves]
      refine membersLeaves_before sorted fun key value member => ?_
      by_cases combines : Combinator key
      · cases value with
        | array items =>
            rw [memberLeaves, if_pos combines]
            refine itemsLeaves_before 0 fun item inside => ?_
            cases each key _ member with
            | array eachItem => exact leaves_before (eachItem item inside)
        | _ => simp [memberLeaves, combines]
      · cases value <;> simp [memberLeaves, combines]
  | .null, _ | .boolean _, _ | .number _, _ | .string _, _ | .array _, _ => by simp [leaves]
termination_by value => sizeOf value
decreasing_by exact sizeOf_item_lt member inside

end ClientFilter

end DocGraph
