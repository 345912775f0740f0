import DocGraph.Proofs.Query.Matching

/-!
# Selecting and counting

Filters compile to a restriction: the condition that they put on documents, if there is one,
and its parameters. Whatever a select lists and however it sorts, a count of the same filters
has the same restriction, and so the two describe one set of documents.
-/

namespace DocGraph

open Json

/-- What filters compile to. Without a condition every document is admitted. -/
structure Restriction where
  condition : Option String
  parameters : List Parameter
deriving DecidableEq

namespace Restriction

variable (restriction : Restriction)

def part : String := Catalog.conditionPart restriction.condition

def select (columns : List String) (order : String) : Statement where
  text := "SELECT " ++ Column.projection columns ++ " FROM c" ++ restriction.part ++
    " ORDER BY " ++ order
  parameters := restriction.parameters

def count : Statement where
  text := "SELECT VALUE COUNT(1) FROM c" ++ restriction.part
  parameters := restriction.parameters

def explain (columns : List String) (order : String) : Explanation :=
  ⟨restriction.select columns order, restriction.count⟩

theorem select_eq (columns : List String) (order : String) : restriction.select columns order =
    ⟨"SELECT " ++ Column.projection columns ++ " FROM " ++ Column.document ++ restriction.part ++
      " ORDER BY " ++ order, restriction.parameters⟩ := by
  have source : " FROM c" = " FROM " ++ Column.document := by decide
  rw [select, source]
  simp only [String.append_assoc]

theorem count_eq : restriction.count =
    ⟨"SELECT VALUE COUNT(1) FROM " ++ Column.document ++ restriction.part,
      restriction.parameters⟩ := by
  have source : "SELECT VALUE COUNT(1) FROM c" =
      "SELECT VALUE COUNT(1) FROM " ++ Column.document := by decide
  rw [← source]
  rfl

/-- The condition is true of a document in every statement with these parameters. -/
def Admits (comparer : Comparer) (document : Value) : Prop :=
  ∀ condition ∈ restriction.condition, ∀ statement : Statement,
    statement.parameters = restriction.parameters →
    Reading (comparer.truth document statement) .disjunction (Token.ofChars condition.toList) true

end Restriction

namespace Catalog

variable (catalog : Catalog) (typename : String)

def restriction (filters : List Filter) : Except QueryError Restriction := do
  let _ ← (catalog.requireEntity typename).mapError QueryError.schema
  let parameters := Parameters.ofFilters filters
  let condition ← catalog.filterText typename filters parameters
  return ⟨condition, parameters.entries⟩

/-- Of the two queries only the select needs columns and an order. -/
def explanation (columns : List String) (filters : List Filter) (keys : List SortKey) :
    Except QueryError Explanation := do
  let restriction ← catalog.restriction typename filters
  let order ← catalog.sortText typename keys
  return restriction.explain columns order

/-- A select and a count of the documents that satisfy filters. -/
def Describes (columns : List String) (filters : List Filter) (keys : List SortKey)
    (explanation : Explanation) : Prop :=
  ∃ restriction order, catalog.restriction typename filters = .ok restriction ∧
    catalog.sortText typename keys = .ok order ∧
    explanation = restriction.explain columns order ∧
    ∀ (comparer : Comparer) (document : Value), restriction.Admits comparer document ↔
      Filter.allHold (comparer.satisfies catalog typename document) filters = true

variable {catalog typename} {columns : List String} {filters : List Filter} {keys : List SortKey}

theorem restriction_eq_ok {restriction : Restriction}
    (compiled : catalog.restriction typename filters = .ok restriction) :
    catalog.filterText typename filters (.ofFilters filters) = .ok restriction.condition ∧
      restriction.parameters = (Parameters.ofFilters filters).entries := by
  obtain ⟨_, _, compiled⟩ := bind_eq_ok.mp compiled
  obtain ⟨condition, text, compiled⟩ := bind_eq_ok.mp compiled
  obtain rfl := pure_eq_ok.mp compiled
  exact ⟨text, rfl⟩

theorem admits_iff {restriction : Restriction}
    (compiled : catalog.restriction typename filters = .ok restriction) (comparer : Comparer)
    (document : Value) : restriction.Admits comparer document ↔
      Filter.allHold (comparer.satisfies catalog typename document) filters = true := by
  obtain ⟨text, carried⟩ := restriction_eq_ok compiled
  cases filters with
  | nil =>
      obtain ⟨parts, none, topmost⟩ := map_eq_ok.mp text
      cases none
      have unrestricted : restriction.condition = none := topmost.symm
      simp [Restriction.Admits, unrestricted, Filter.allHold]
  | cons first rest =>
      obtain ⟨condition, present⟩ := filterText_eq_some text
      rw [present] at text
      have reads : ∀ statement : Statement, statement.parameters = restriction.parameters →
          (Reading (comparer.truth document statement) .disjunction
              (Token.ofChars condition.toList) true ↔
            Filter.allHold (comparer.satisfies catalog typename document) (first :: rest) =
              true) := by
        intro statement carries
        rw [reading_filterText text (carries.trans carried) comparer document true, eq_comm]
      constructor
      · intro admits
        exact (reads restriction.count rfl).mp (admits condition present restriction.count rfl)
      · intro holds other same statement carries
        obtain rfl := Option.some.inj (present.symm.trans same)
        exact (reads statement carries).mpr holds

theorem describes_of_explanation {explanation : Explanation}
    (explained : catalog.explanation typename columns filters keys = .ok explanation) :
    catalog.Describes typename columns filters keys explanation := by
  obtain ⟨restriction, compiled, explained⟩ := bind_eq_ok.mp explained
  obtain ⟨order, sorted, explained⟩ := bind_eq_ok.mp explained
  exact ⟨restriction, order, compiled, sorted, (pure_eq_ok.mp explained).symm, admits_iff compiled⟩

theorem select_eq_map : catalog.select typename columns filters keys =
    (catalog.explanation typename columns filters keys).map (·.select) := by
  rw [map_eq_bind]
  simp only [select, explanation, restriction, bind_assoc, pure_bind, Restriction.explain,
    Restriction.select_eq, Restriction.part]

theorem count_eq_map : catalog.count typename filters =
    (catalog.restriction typename filters).map (·.count) := by
  rw [map_eq_bind]
  simp only [count, restriction, bind_assoc, pure_bind, Restriction.count_eq, Restriction.part]

theorem count_of_explanation {explanation : Explanation}
    (explained : catalog.explanation typename columns filters keys = .ok explanation) :
    catalog.count typename filters = .ok explanation.count := by
  obtain ⟨restriction, compiled, explained⟩ := bind_eq_ok.mp explained
  obtain ⟨order, _, explained⟩ := bind_eq_ok.mp explained
  obtain rfl := pure_eq_ok.mp explained
  rw [count_eq_map, compiled]
  rfl

theorem select_bind_count {α : Type} (next : Explanation → Except QueryError α) :
    (do
      let select ← catalog.select typename columns filters keys
      let count ← catalog.count typename filters
      next ⟨select, count⟩) =
      catalog.explanation typename columns filters keys >>= next := by
  rw [select_eq_map]
  cases explained : catalog.explanation typename columns filters keys with
  | error error => rfl
  | ok explanation =>
      simp only [count_of_explanation explained]
      rfl

theorem explain_eq (filter sort : Value) : catalog.explain typename columns filter sort = (do
    let filters ← Filter.ofInput filter
    let keys ← SortKey.ofInput sort
    catalog.explanation typename columns filters keys) := by
  simp only [explain, select_bind_count, bind_pure]

end Catalog

end DocGraph
