import DocGraph.Query.Statement
import DocGraph.Proofs.Outcome
import Mathlib.Data.List.Forall2

/-!
# Compared values stay out of the text

Filters that differ in compared values only have one text. Of the values only
three things matter: which of them are equal, which searched operands are
arrays, and whether the operand of a definedness test is a boolean.
-/

namespace DocGraph

open Json

/-- What a comparison looks at in its operand is equal. -/
def Comparison.SameKind (comparison : Comparison) (left right : Value) : Prop :=
  (comparison.operator.isPlural = true → left.isArray = right.isArray) ∧
    (comparison.operator = .defined → left.isBoolean = right.isBoolean)

instance (comparison : Comparison) (left right : Value) :
    Decidable (comparison.SameKind left right) :=
  inferInstanceAs (Decidable ((_ → _) ∧ (_ → _)))

namespace Filter

mutual

/-- Filters that differ in compared values only. -/
inductive Alike : Filter → Filter → Prop
  | test {target : Target} {comparison : Comparison} {left right : Value}
      (kinds : comparison.SameKind left right) :
      Alike (.test ⟨target, comparison, left⟩) (.test ⟨target, comparison, right⟩)
  | all {lefts rights : List Filter} (children : AllAlike lefts rights) :
      Alike (.all lefts) (.all rights)
  | any {lefts rights : List Filter} (children : AllAlike lefts rights) :
      Alike (.any lefts) (.any rights)

inductive AllAlike : List Filter → List Filter → Prop
  | nil : AllAlike [] []
  | cons {left right : Filter} {lefts rights : List Filter} (first : Alike left right)
      (others : AllAlike lefts rights) : AllAlike (left :: lefts) (right :: rights)

end

def valuePairs (lefts rights : List Filter) : List (Value × Value) :=
  ((testsOf lefts).map (·.value)).zip ((testsOf rights).map (·.value))

/-- Equal values in one place are equal values in the other. -/
def SamePattern (pairs : List (Value × Value)) : Prop :=
  ∀ pair ∈ pairs, ∀ other ∈ pairs, pair.1.same other.1 = pair.2.same other.2

instance (pairs : List (Value × Value)) : Decidable (SamePattern pairs) :=
  inferInstanceAs
    (Decidable (∀ pair ∈ pairs, ∀ other ∈ pairs, pair.1.same other.1 = pair.2.same other.2))

end Filter

/-- One text with parameters of the same names, the values of which are compared
by the same test. -/
structure Statement.Corresponds (pairs : List (Value × Value)) (left right : Statement) : Prop where
  text : left.text = right.text
  parameters : List.Forall₂
    (fun parameter other => parameter.name = other.name ∧ (parameter.value, other.value) ∈ pairs)
    left.parameters right.parameters

namespace Parameters

open DocGraph.Filter

variable {pairs held : List (Value × Value)}

theorem place?_eq {left right : Value}
    (pattern : ∀ pair ∈ held, pair.1.same left = pair.2.same right) :
    (⟨held.map (·.1)⟩ : Parameters).place? left = (⟨held.map (·.2)⟩ : Parameters).place? right := by
  induction held with
  | nil => rfl
  | cons pair rest ih =>
      have first := pattern pair List.mem_cons_self
      have others := ih fun other member => pattern other (.tail _ member)
      simp only [place?] at others
      simp [place?, List.findIdx?_cons, first, others]

theorem add_eq {left right : Value}
    (pattern : ∀ pair ∈ held, pair.1.same left = pair.2.same right) :
    ∃ others, others ⊆ (left, right) :: held ∧
      (⟨held.map (·.1)⟩ : Parameters).add left = ⟨others.map (·.1)⟩ ∧
      (⟨held.map (·.2)⟩ : Parameters).add right = ⟨others.map (·.2)⟩ := by
  have places := place?_eq pattern
  cases found : (⟨held.map (·.2)⟩ : Parameters).place? right with
  | some place =>
      rw [found] at places
      refine ⟨held, List.subset_cons_self _ _, ?_, ?_⟩
      · simp [add, slot, places]
      · simp [add, slot, found]
  | none =>
      rw [found] at places
      refine ⟨held ++ [(left, right)], by simp, ?_, ?_⟩
      · simp [add, slot, places]
      · simp [add, slot, found]

/-- Corresponding values are numbered in lockstep. -/
theorem foldl_add_eq {pending : List (Value × Value)} (pattern : SamePattern pairs)
    (known : held ⊆ pairs) (more : pending ⊆ pairs) :
    ∃ others, others ⊆ pairs ∧
      (pending.map (·.1)).foldl add ⟨held.map (·.1)⟩ = ⟨others.map (·.1)⟩ ∧
      (pending.map (·.2)).foldl add ⟨held.map (·.2)⟩ = ⟨others.map (·.2)⟩ := by
  induction pending generalizing held with
  | nil => exact ⟨held, known, rfl, rfl⟩
  | cons pair rest ih =>
      obtain ⟨left, right⟩ := pair
      have here : (left, right) ∈ pairs := more List.mem_cons_self
      obtain ⟨extended, within, first, second⟩ :=
        add_eq fun other member => pattern other (known member) _ here
      have inside : extended ⊆ pairs := fun other member =>
        (List.mem_cons.mp (within member)).elim (fun same => same ▸ here) fun old => known old
      simp only [List.map_cons, List.foldl_cons, first, second]
      exact ih inside fun other member => more (.tail _ member)

end Parameters

namespace Filter

mutual

theorem Alike.length_eq : ∀ {left right : Filter}, Alike left right →
    left.tests.length = right.tests.length
  | _, _, .test _ => rfl
  | _, _, .all children => by
      rw [tests, tests]
      exact children.length_eq
  | _, _, .any children => by
      rw [tests, tests]
      exact children.length_eq

theorem AllAlike.length_eq : ∀ {lefts rights : List Filter}, AllAlike lefts rights →
    (testsOf lefts).length = (testsOf rights).length
  | _, _, .nil => rfl
  | _, _, .cons first others => by
      rw [testsOf, testsOf, List.length_append, List.length_append, first.length_eq,
        others.length_eq]

end

variable {left right : Filter} {lefts rights : List Filter}

theorem valuePairs_cons (first : Alike left right) :
    valuePairs (left :: lefts) (right :: rights) =
      (left.tests.map (·.value)).zip (right.tests.map (·.value)) ++ valuePairs lefts rights := by
  rw [valuePairs, testsOf, testsOf, List.map_append, List.map_append]
  exact List.zip_append (by rw [List.length_map, List.length_map, first.length_eq])

theorem AllAlike.map_valuePairs (alike : AllAlike lefts rights) :
    (valuePairs lefts rights).map (·.1) = (testsOf lefts).map (·.value) ∧
      (valuePairs lefts rights).map (·.2) = (testsOf rights).map (·.value) := by
  have lengths :
      ((testsOf lefts).map (·.value)).length = ((testsOf rights).map (·.value)).length := by
    rw [List.length_map, List.length_map, alike.length_eq]
  exact ⟨List.map_fst_zip (Nat.le_of_eq lengths), List.map_snd_zip (Nat.le_of_eq lengths.symm)⟩

end Filter

namespace Parameters

open DocGraph.Filter

theorem ofFilters_eq {lefts rights : List Filter} (alike : AllAlike lefts rights)
    (pattern : SamePattern (valuePairs lefts rights)) :
    ∃ held, held ⊆ valuePairs lefts rights ∧ ofFilters lefts = ⟨held.map (·.1)⟩ ∧
      ofFilters rights = ⟨held.map (·.2)⟩ := by
  obtain ⟨held, within, first, second⟩ :=
    foldl_add_eq pattern (List.nil_subset _) (List.Subset.refl (valuePairs lefts rights))
  rw [alike.map_valuePairs.1] at first
  rw [alike.map_valuePairs.2] at second
  exact ⟨held, within, first, second⟩

theorem entries_correspond (held : List (Value × Value)) :
    List.Forall₂
      (fun parameter other =>
        parameter.name = other.name ∧ (parameter.value, other.value) ∈ held)
      (⟨held.map (·.1)⟩ : Parameters).entries (⟨held.map (·.2)⟩ : Parameters).entries := by
  have shape : ∀ side : Value × Value → Value, (⟨held.map side⟩ : Parameters).entries =
      held.zipIdx.map fun placed => ⟨nameAt placed.2, side placed.1⟩ := by
    intro side
    simp [entries, List.zipIdx_map, Function.comp_def]
  rw [shape, shape, List.forall₂_map_left_iff, List.forall₂_map_right_iff, List.forall₂_same]
  intro placed member
  exact ⟨rfl, List.mem_of_getElem? (List.mem_zipIdx_iff_getElem?.mp member)⟩

end Parameters

/-- The clause of a comparison depends on the kind of its operand's value only. -/
theorem Clause.ofComparison_congr {comparison : Comparison} {column operand : String}
    {left right : Value} (kinds : comparison.SameKind left right) :
    ofComparison comparison column operand left = ofComparison comparison column operand right := by
  obtain ⟨operator, ignoreCase⟩ := comparison
  obtain ⟨arrays, booleans⟩ := kinds
  cases operator with
  | oneOf | noneOf => simp [ofComparison, membership, arrays rfl]
  | defined => simp [ofComparison, booleans rfl]
  | _ => rfl

namespace Catalog

open DocGraph.Filter

variable {catalog : Catalog} {typename : String} {before after : Parameters}

theorem testClause_congr {target : Target} {comparison : Comparison} {left right : Value}
    (kinds : comparison.SameKind left right) (named : before.nameOf? left = after.nameOf? right) :
    catalog.testClause typename before ⟨target, comparison, left⟩ =
      catalog.testClause typename after ⟨target, comparison, right⟩ := by
  simp only [testClause, named, Clause.ofComparison_congr kinds]
  rfl

mutual

theorem condition_congr : ∀ {left right : Filter}, Alike left right →
    (∀ pair ∈ (left.tests.map (·.value)).zip (right.tests.map (·.value)),
      before.nameOf? pair.1 = after.nameOf? pair.2) →
      catalog.condition typename before left = catalog.condition typename after right
  | _, _, .test kinds, named => by
      rw [condition, condition, testClause_congr kinds (named (_, _) (.head _))]
  | _, _, .all children, named => by
      rw [tests, tests] at named
      rw [condition, condition, conditions_congr children named]
  | _, _, .any children, named => by
      rw [tests, tests] at named
      rw [condition, condition, conditions_congr children named]

theorem conditions_congr : ∀ {lefts rights : List Filter}, AllAlike lefts rights →
    (∀ pair ∈ valuePairs lefts rights, before.nameOf? pair.1 = after.nameOf? pair.2) →
      catalog.conditions typename before lefts = catalog.conditions typename after rights
  | _, _, .nil, _ => rfl
  | _, _, .cons first others, named => by
      rw [valuePairs_cons first] at named
      have here := condition_congr first fun pair member =>
        named pair (List.mem_append_left _ member)
      have later := conditions_congr others fun pair member =>
        named pair (List.mem_append_right _ member)
      rw [conditions, conditions, here, later]

end

/-- The text of a query and the names of its parameters do not depend on the
compared values beyond their pattern of equality and the kinds that comparisons
look at; the parameters' values are compared by the same tests. -/
theorem queries_correspond (catalog : Catalog) (typename : String) {lefts rights : List Filter}
    (alike : AllAlike lefts rights) (pattern : SamePattern (valuePairs lefts rights)) :
    (∀ columns keys, Agree (Statement.Corresponds (valuePairs lefts rights))
      (catalog.select typename columns lefts keys) (catalog.select typename columns rights keys)) ∧
    Agree (Statement.Corresponds (valuePairs lefts rights)) (catalog.count typename lefts)
      (catalog.count typename rights) := by
  obtain ⟨held, within, first, second⟩ := Parameters.ofFilters_eq alike pattern
  have named : ∀ pair ∈ valuePairs lefts rights,
      (Parameters.ofFilters lefts).nameOf? pair.1 =
        (Parameters.ofFilters rights).nameOf? pair.2 := by
    intro pair member
    rw [first, second, Parameters.nameOf?, Parameters.nameOf?,
      Parameters.place?_eq fun other known => pattern other (within known) pair member]
  have parameters : List.Forall₂
      (fun parameter other =>
        parameter.name = other.name ∧ (parameter.value, other.value) ∈ valuePairs lefts rights)
      (Parameters.ofFilters lefts).entries (Parameters.ofFilters rights).entries := by
    rw [first, second]
    exact (Parameters.entries_correspond held).imp fun _ _ same => ⟨same.1, within same.2⟩
  have texts : catalog.filterText typename lefts (.ofFilters lefts) =
      catalog.filterText typename rights (.ofFilters rights) := by
    rw [filterText, filterText, conditions_congr alike named]
  constructor
  · intro columns keys
    rw [select, select]
    refine .of_bind _ fun _ => ?_
    dsimp only
    rw [texts]
    refine .of_bind _ fun condition => .of_bind _ fun order => ?_
    exact .ok ⟨rfl, parameters⟩
  · rw [count, count]
    refine .of_bind _ fun _ => ?_
    dsimp only
    rw [texts]
    refine .of_bind _ fun condition => ?_
    exact .ok ⟨rfl, parameters⟩

def publicFilters : List Filter :=
  [.any [.test ⟨.column "name", ⟨.equal, true⟩, .string "Ann"⟩,
      .test ⟨.column "alias", ⟨.contains, false⟩, .string "Ann"⟩],
    .test ⟨.column "tag", ⟨.noneOf, false⟩, .array [.string "x"]⟩,
    .test ⟨.column "age", ⟨.defined, false⟩, .boolean true⟩]

def secretFilters : List Filter :=
  [.any [.test ⟨.column "name", ⟨.equal, true⟩, .string "c.x) OR (true"⟩,
      .test ⟨.column "alias", ⟨.contains, false⟩, .string "c.x) OR (true"⟩],
    .test ⟨.column "tag", ⟨.noneOf, false⟩, .array []⟩,
    .test ⟨.column "age", ⟨.defined, false⟩, .boolean false⟩]

def personCatalog : Catalog := ofSchema ⟨[⟨"Person", .unknown, false, []⟩]⟩

theorem queries_correspond_secret :
    AllAlike publicFilters secretFilters ∧
      SamePattern (valuePairs publicFilters secretFilters) ∧
      (personCatalog.count "Person" secretFilters).toOption.map (·.text) =
        some ("SELECT VALUE COUNT(1) FROM c WHERE (STRINGEQUALS(c.name, @p1, true) OR "
          ++ "CONTAINS(c.alias, @p1)) AND NOT ARRAY_CONTAINS(@p2, c.tag) AND "
          ++ "IS_DEFINED(c.age) = @p3") ∧
      (∀ columns keys, Agree (Statement.Corresponds (valuePairs publicFilters secretFilters))
        (personCatalog.select "Person" columns publicFilters keys)
        (personCatalog.select "Person" columns secretFilters keys)) ∧
      Agree (Statement.Corresponds (valuePairs publicFilters secretFilters))
        (personCatalog.count "Person" publicFilters)
        (personCatalog.count "Person" secretFilters) := by
  have alike : AllAlike publicFilters secretFilters :=
    .cons (.any (.cons (.test (by decide)) (.cons (.test (by decide)) .nil)))
      (.cons (.test (by decide)) (.cons (.test (by decide)) .nil))
  have pattern : SamePattern (valuePairs publicFilters secretFilters) := by decide
  exact ⟨alike, pattern, by decide +kernel, queries_correspond _ _ alike pattern⟩

end Catalog

end DocGraph
