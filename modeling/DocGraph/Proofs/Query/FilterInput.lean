import DocGraph.Proofs.Outcome
import DocGraph.Proofs.Query.ClientFilter
import DocGraph.Proofs.Query.FilterKey
import Mathlib.Data.List.Forall2

namespace DocGraph

open Json ClientFilter

namespace Filter

mutual

/-- Whether a filter holds, given which of its tests hold, from left to right. -/
def holdsWith : Filter → List Bool → Bool
  | .test _, truths => truths.headD false
  | .all children, truths => allHoldWith children truths
  | .any children, truths => anyHoldsWith children truths

def allHoldWith : List Filter → List Bool → Bool
  | [], _ => true
  | first :: rest, truths =>
    holdsWith first (truths.take first.tests.length)
      && allHoldWith rest (truths.drop first.tests.length)

def anyHoldsWith : List Filter → List Bool → Bool
  | [], _ => false
  | first :: rest, truths =>
    holdsWith first (truths.take first.tests.length)
      || anyHoldsWith rest (truths.drop first.tests.length)

end

theorem testsOf_append (front back : List Filter) :
    testsOf (front ++ back) = testsOf front ++ testsOf back := by
  induction front with
  | nil => rfl
  | cons first rest ih => rw [List.cons_append, testsOf, testsOf, ih, List.append_assoc]

theorem tests_alternative (filters : List Filter) :
    (alternative filters).tests = testsOf filters := by
  cases filters with
  | nil => rfl
  | cons first rest =>
      cases rest with
      | nil => exact (List.append_nil _).symm
      | cons second rest => rfl

theorem allHoldWith_cons {first : Filter} {rest : List Filter} {here later : List Bool}
    (fits : here.length = first.tests.length) :
    allHoldWith (first :: rest) (here ++ later) =
      (holdsWith first here && allHoldWith rest later) := by
  rw [allHoldWith, ← fits, List.take_left, List.drop_left]

theorem anyHoldsWith_cons {first : Filter} {rest : List Filter} {here later : List Bool}
    (fits : here.length = first.tests.length) :
    anyHoldsWith (first :: rest) (here ++ later) =
      (holdsWith first here || anyHoldsWith rest later) := by
  rw [anyHoldsWith, ← fits, List.take_left, List.drop_left]

theorem allHoldWith_append {front back : List Filter} {here later : List Bool}
    (fits : here.length = (testsOf front).length) :
    allHoldWith (front ++ back) (here ++ later) =
      (allHoldWith front here && allHoldWith back later) := by
  induction front generalizing here with
  | nil =>
      obtain rfl : here = [] := List.length_eq_zero_iff.mp fits
      rfl
  | cons first rest ih =>
      rw [testsOf, List.length_append] at fits
      have short : first.tests.length ≤ here.length := by omega
      have others := @ih (here.drop first.tests.length) (by rw [List.length_drop]; omega)
      rw [List.cons_append, allHoldWith, allHoldWith, List.take_append_of_le_length short,
        List.drop_append_of_le_length short, others, Bool.and_assoc]

/-- An alternative means the conjunction of its filters. -/
theorem holdsWith_alternative {filters : List Filter} {truths : List Bool}
    (fits : truths.length = (testsOf filters).length) :
    holdsWith (alternative filters) truths = allHoldWith filters truths := by
  cases filters with
  | nil => rfl
  | cons first rest =>
      cases rest with
      | nil =>
          rw [testsOf, testsOf, List.append_nil] at fits
          rw [alternative, allHoldWith, allHoldWith, ← fits, List.take_length, Bool.and_true]
      | cons second rest => rfl

end Filter

namespace ClientFilter

/-- A test asks what a leaf says. -/
def Leaf.Gives (leaf : Leaf) (test : Test) : Prop :=
  ∃ key : FilterKey, key.field ≠ "" ∧ key.write = leaf.key ∧
    test = ⟨.key key.field, key.comparison, leaf.value⟩

/-- Leaves became tests one by one, and what is built of the tests holds whenever
what is said of the leaves does. -/
structure Represented (leaves : List Leaf) (said : (Leaf → Bool) → Bool) (tests : List Test)
    (built : List Bool → Bool) : Prop where
  gives : List.Forall₂ Leaf.Gives leaves tests
  means : ∀ truth, built (leaves.map truth) = said truth

namespace Represented

open DocGraph.Filter

variable {leaves others : List Leaf} {said also : (Leaf → Bool) → Bool} {first : Filter}
  {filters rest : List Filter}

theorem length_eq {tests : List Test} {built : List Bool → Bool} (truth : Leaf → Bool)
    (represented : Represented leaves said tests built) :
    (leaves.map truth).length = tests.length := by
  rw [List.length_map, represented.gives.length_eq]

theorem under {tests : List Test} {built : List Bool → Bool}
    (represented : Represented leaves said tests built) (key : String) (place : Nat) :
    Represented (leaves.map (·.under key place))
      (fun truth => said fun leaf => truth (leaf.under key place)) tests built := by
  refine ⟨List.forall₂_map_left_iff.mpr represented.gives, fun truth => ?_⟩
  rw [List.map_map]
  exact represented.means _

theorem nothing : Represented [] (fun _ => true) (testsOf []) (allHoldWith []) :=
  ⟨.nil, fun _ => rfl⟩

theorem never : Represented [] (fun _ => false) (testsOf []) (anyHoldsWith []) :=
  ⟨.nil, fun _ => rfl⟩

theorem cons (head : Represented leaves said first.tests (holdsWith first))
    (tail : Represented others also (testsOf rest) (allHoldWith rest)) :
    Represented (leaves ++ others) (fun truth => said truth && also truth)
      (testsOf (first :: rest)) (allHoldWith (first :: rest)) := by
  refine ⟨List.rel_append head.gives tail.gives, fun truth => ?_⟩
  rw [List.map_append, allHoldWith_cons (head.length_eq truth), head.means, tail.means]

theorem append (front : Represented leaves said (testsOf filters) (allHoldWith filters))
    (back : Represented others also (testsOf rest) (allHoldWith rest)) :
    Represented (leaves ++ others) (fun truth => said truth && also truth)
      (testsOf (filters ++ rest)) (allHoldWith (filters ++ rest)) := by
  refine ⟨?_, fun truth => ?_⟩
  · rw [testsOf_append]
    exact List.rel_append front.gives back.gives
  · rw [List.map_append, allHoldWith_append (front.length_eq truth), front.means, back.means]

theorem orElse (head : Represented leaves said (testsOf filters) (allHoldWith filters))
    (tail : Represented others also (testsOf rest) (anyHoldsWith rest)) :
    Represented (leaves ++ others) (fun truth => said truth || also truth)
      (testsOf (alternative filters :: rest)) (anyHoldsWith (alternative filters :: rest)) := by
  refine ⟨?_, fun truth => ?_⟩
  · rw [testsOf, tests_alternative]
    exact List.rel_append head.gives tail.gives
  · have fits := head.length_eq truth
    rw [List.map_append, anyHoldsWith_cons (by rw [fits, tests_alternative]),
      holdsWith_alternative fits, head.means, tail.means]

theorem ofTest {key : String} {value : Value} (accepted : Filter.ofTest key value = .ok first) :
    Represented [⟨[], key, value⟩] (fun truth => truth ⟨[], key, value⟩) first.tests
      (holdsWith first) := by
  obtain ⟨parsed, known, rfl⟩ := map_eq_ok.mp accepted
  obtain ⟨nonempty, written⟩ := FilterKey.parse_eq_ok_iff.mp known
  exact ⟨.cons ⟨parsed, nonempty, written, rfl⟩ .nil, fun _ => rfl⟩

end Represented

end ClientFilter

namespace Filter

section Compares

variable {key : String} (compares : ¬Combinator key) (value : Value)

include compares

theorem ofMember_of_compares : ofMember key value = ofTest key value := by
  obtain ⟨conjoins, disjoins⟩ := not_or.mp compares
  cases value <;> simp [ofMember, conjoins, disjoins]

theorem memberLeaves_of_compares : memberLeaves key value = [⟨[], key, value⟩] := by
  cases value <;> simp [memberLeaves, compares]

theorem memberHolds_of_compares (truth : Leaf → Bool) :
    memberHolds truth key value = truth ⟨[], key, value⟩ := by
  obtain ⟨conjoins, disjoins⟩ := not_or.mp compares
  cases value <;> simp [memberHolds, conjoins, disjoins]

theorem testAccepted_iff :
    (∃ filter, ofTest key value = .ok filter) ↔ AdmissibleMember key value := by
  constructor
  · intro accepted
    obtain ⟨filter, accepted⟩ := accepted
    obtain ⟨parsed, known, _⟩ := map_eq_ok.mp accepted
    obtain ⟨nonempty, rfl⟩ := FilterKey.parse_eq_ok_iff.mp known
    exact .leaf nonempty compares
  · intro admissible
    cases admissible with
    | combinator combines _ => exact absurd combines compares
    | @leaf parsed _ nonempty _ =>
        have known := FilterKey.parse_eq_ok_iff.mpr ⟨nonempty, rfl⟩
        exact ⟨_, map_eq_ok.mpr ⟨parsed, known, rfl⟩⟩

end Compares

mutual

theorem represented_of_ofInput : ∀ (value : Value) {filters : List Filter},
    ofInput value = .ok filters →
      Represented (leaves value) (holds · value) (testsOf filters) (allHoldWith filters)
  | .object members, filters, accepted => by
      rw [ofInput] at accepted
      have represented := represented_of_ofMembers members accepted
      simpa only [ClientFilter.leaves, ClientFilter.holds] using represented
  | .null, filters, accepted => by
      obtain rfl : [] = filters := by simpa [ofInput] using accepted
      exact .nothing
  | .boolean _, _, accepted | .number _, _, accepted | .string _, _, accepted
  | .array _, _, accepted => by simp [ofInput] at accepted

theorem represented_of_ofMembers : ∀ (members : List (String × Value)) {filters : List Filter},
    ofMembers members = .ok filters →
      Represented (membersLeaves members) (membersHold · members) (testsOf filters)
        (allHoldWith filters)
  | [], filters, accepted => by
      obtain rfl : [] = filters := by simpa [ofMembers] using accepted
      exact .nothing
  | (key, value) :: rest, filters, accepted => by
      rw [ofMembers] at accepted
      obtain ⟨first, headed, accepted⟩ := bind_eq_ok.mp accepted
      obtain ⟨others, tailed, accepted⟩ := bind_eq_ok.mp accepted
      obtain rfl := pure_eq_ok.mp accepted
      exact (represented_of_ofMember value headed).cons (represented_of_ofMembers rest tailed)

theorem represented_of_ofMember : ∀ (value : Value) {key : String} {filter : Filter},
    ofMember key value = .ok filter →
      Represented (memberLeaves key value) (memberHolds · key value) filter.tests
        (holdsWith filter)
  | .array items, key, filter, accepted => by
      by_cases combines : Combinator key
      · rw [ofMember] at accepted
        rw [memberLeaves, if_pos combines]
        rcases combines with rfl | rfl
        · rw [if_pos rfl] at accepted
          obtain ⟨groups, inner, rfl⟩ := map_eq_ok.mp accepted
          simpa [memberHolds, tests, holdsWith] using (represented_of_ofItems items inner).1
        · rw [if_neg (by decide), if_pos rfl] at accepted
          obtain ⟨groups, inner, rfl⟩ := map_eq_ok.mp accepted
          simpa [memberHolds, tests, holdsWith] using (represented_of_ofItems items inner).2
      · rw [ofMember_of_compares combines] at accepted
        simpa only [memberLeaves_of_compares combines, memberHolds_of_compares combines] using
          Represented.ofTest accepted
  | .null, key, filter, accepted | .boolean _, key, filter, accepted
  | .number _, key, filter, accepted | .string _, key, filter, accepted
  | .object _, key, filter, accepted => by
      by_cases combines : Combinator key
      · rcases combines with rfl | rfl <;> simp [ofMember] at accepted
      · rw [ofMember_of_compares combines] at accepted
        simpa only [memberLeaves_of_compares combines, memberHolds_of_compares combines] using
          Represented.ofTest accepted

theorem represented_of_ofItems : ∀ (items : List Value) {key : String} {start : Nat}
    {groups : List (List Filter)}, ofItems items = .ok groups →
      Represented (itemsLeaves key start items) (allItemsHold · key start items)
          (testsOf groups.flatten) (allHoldWith groups.flatten) ∧
        Represented (itemsLeaves key start items) (anyItemHolds · key start items)
          (testsOf (groups.map alternative)) (anyHoldsWith (groups.map alternative))
  | [], key, start, groups, accepted => by
      obtain rfl : [] = groups := by simpa [ofItems] using accepted
      exact ⟨.nothing, .never⟩
  | item :: rest, key, start, groups, accepted => by
      rw [ofItems] at accepted
      obtain ⟨first, headed, accepted⟩ := bind_eq_ok.mp accepted
      obtain ⟨others, tailed, accepted⟩ := bind_eq_ok.mp accepted
      obtain rfl := pure_eq_ok.mp accepted
      have here := (represented_of_ofInput item headed).under key start
      obtain ⟨all, any⟩ := represented_of_ofItems rest tailed
      exact ⟨here.append all, here.orElse any⟩

end

mutual

theorem accepted_iff : ∀ value : Value,
    (∃ filters, ofInput value = .ok filters) ↔ Admissible value
  | .null => ⟨fun _ => .null, fun _ => ⟨[], by rw [ofInput]⟩⟩
  | .object members => by
      have each := membersAccepted_iff members
      rw [ofInput, each]
      constructor
      · exact .object
      · intro admissible
        cases admissible with
        | object each => exact each
  | .boolean _ | .number _ | .string _ | .array _ => by
      constructor
      · intro accepted
        obtain ⟨filters, accepted⟩ := accepted
        simp [ofInput] at accepted
      · intro admissible
        cases admissible

theorem membersAccepted_iff : ∀ members : List (String × Value),
    (∃ filters, ofMembers members = .ok filters) ↔
      ∀ key value, (key, value) ∈ members → AdmissibleMember key value
  | [] => ⟨fun _ => by simp, fun _ => ⟨[], by rw [ofMembers]⟩⟩
  | (key, value) :: rest => by
      have head := @memberAccepted_iff value key
      have tail := membersAccepted_iff rest
      rw [ofMembers]
      constructor
      · intro accepted
        obtain ⟨filters, accepted⟩ := accepted
        obtain ⟨first, headed, accepted⟩ := bind_eq_ok.mp accepted
        obtain ⟨others, tailed, _⟩ := bind_eq_ok.mp accepted
        intro name other member
        rcases List.mem_cons.mp member with same | later
        · cases same
          exact head.mp ⟨first, headed⟩
        · exact tail.mp ⟨others, tailed⟩ name other later
      · intro each
        obtain ⟨first, headed⟩ := head.mpr (each key value List.mem_cons_self)
        obtain ⟨others, tailed⟩ :=
          tail.mpr fun name other member => each name other (.tail _ member)
        refine ⟨first :: others, bind_eq_ok.mpr ⟨first, headed, ?_⟩⟩
        exact bind_eq_ok.mpr ⟨others, tailed, rfl⟩

theorem memberAccepted_iff : ∀ (value : Value) {key : String},
    (∃ filter, ofMember key value = .ok filter) ↔ AdmissibleMember key value
  | .array items, key => by
      by_cases combines : Combinator key
      · have inner : (∃ filter, ofMember key (.array items) = .ok filter) ↔
            ∃ groups, ofItems items = .ok groups := by
          rcases combines with rfl | rfl <;> simp [ofMember, map_eq_ok]
        rw [inner, itemsAccepted_iff items]
        constructor
        · exact .combinator combines
        · intro admissible
          cases admissible with
          | combinator _ each => exact each
          | leaf _ compares => exact absurd combines compares
      · rw [ofMember_of_compares combines]
        exact testAccepted_iff combines _
  | .null, key | .boolean _, key | .number _, key | .string _, key | .object _, key => by
      by_cases combines : Combinator key
      · constructor
        · intro accepted
          obtain ⟨filter, accepted⟩ := accepted
          rcases combines with rfl | rfl <;> simp [ofMember] at accepted
        · intro admissible
          cases admissible with
          | leaf _ compares => exact absurd combines compares
      · rw [ofMember_of_compares combines]
        exact testAccepted_iff combines _

theorem itemsAccepted_iff : ∀ items : List Value,
    (∃ groups, ofItems items = .ok groups) ↔ ∀ item ∈ items, Admissible item
  | [] => ⟨fun _ => by simp, fun _ => ⟨[], by rw [ofItems]⟩⟩
  | item :: rest => by
      have head := accepted_iff item
      have tail := itemsAccepted_iff rest
      rw [ofItems, List.forall_mem_cons, ← head, ← tail]
      constructor
      · intro accepted
        obtain ⟨groups, accepted⟩ := accepted
        obtain ⟨first, headed, accepted⟩ := bind_eq_ok.mp accepted
        obtain ⟨others, tailed, _⟩ := bind_eq_ok.mp accepted
        exact ⟨⟨first, headed⟩, others, tailed⟩
      · intro parts
        obtain ⟨⟨first, headed⟩, others, tailed⟩ := parts
        refine ⟨first :: others, bind_eq_ok.mpr ⟨first, headed, ?_⟩⟩
        exact bind_eq_ok.mpr ⟨others, tailed, rfl⟩

end

/-- Client input is accepted exactly when it is a filter. Its tree then has one
test for each leaf, in the order of the leaves' paths, and holds whenever the
filter does. -/
theorem ofInput_faithful (value : Value) :
    match ofInput value with
    | .error _ => ¬Admissible value
    | .ok filters => Admissible value ∧ ∃ leaves : List Leaf,
        (∀ leaf, leaf ∈ leaves ↔ LeafAt value leaf) ∧
        (value.KeysIncrease → leaves.Pairwise Leaf.Before) ∧
        List.Forall₂ Leaf.Gives leaves (testsOf filters) ∧
        ∀ truth : Leaf → Bool, allHoldWith filters (leaves.map truth) = holds truth value := by
  cases accepted : ofInput value with
  | error fault =>
      intro admissible
      obtain ⟨filters, known⟩ := (accepted_iff value).mpr admissible
      rw [accepted] at known
      cases known
  | ok filters =>
      have represented := represented_of_ofInput value accepted
      exact ⟨(accepted_iff value).mp ⟨filters, accepted⟩, leaves value, fun _ => mem_leaves_iff,
        leaves_before, represented.gives, represented.means⟩

end Filter

end DocGraph
