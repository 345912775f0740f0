import DocGraph.Proofs.Query.Selecting

namespace DocGraph

open Token (Spells Leads Closes)

/-- The columns that a select lists. -/
def Token.columns? : List Token → Option (List String)
  | .word "SELECT" :: rest => (columnsFrom? rest).map (·.1)
  | _ => none

namespace Statement

def columns? (statement : Statement) : Option (List String) :=
  Token.columns? (Token.ofChars statement.text.toList)

/-- The columns are listed, whatever comes after the container. -/
theorem columns?_of_text {statement : Statement} {columns : List String} (ending : String)
    (text : statement.text =
      "SELECT " ++ Column.projection columns ++ " FROM " ++ Column.document ++ ending)
    (apart : ending.toList.head? = some ' ') :
    statement.columns? = some (Column.projected columns) := by
  have nonempty := Column.projected_ne_nil columns
  have opened : Leads "SELECT " [.word "SELECT"] := by decide
  have middle : Closes " FROM " [.word "FROM"] ∧ Leads " FROM " [.word "FROM"] := by decide
  have container : Spells Column.document [.word "c"] := by
    have read : Token.ofWord Column.document.toList = .word "c" := by decide
    have wordy : Column.document.toList.all Lexeme.isWordChar = true := by decide
    rw [← read]
    exact Spells.word (by decide) (List.all_eq_true.mp wordy)
  have whole :=
    (Spells.lead opened (Spells.references nonempty)).between middle.1 middle.2 container
  have boundary : Lexeme.Boundary ending.toList := by
    cases chars : ending.toList with
    | nil => trivial
    | cons first rest =>
        rw [chars] at apart
        cases apart
        exact .inl rfl
  have read := whole ending.toList boundary
  rw [← String.toList_append] at read
  rw [columns?, text, Column.projection, read]
  simp only [List.cons_append, List.nil_append, List.append_assoc, Token.columns?]
  rw [Token.columnsFrom?_listed nonempty]
  rfl

end Statement

theorem Catalog.columns?_select {catalog : Catalog} {typename : String} {columns : List String}
    {filters : List Filter} {keys : List SortKey} {statement : Statement}
    (built : catalog.select typename columns filters keys = .ok statement) :
    statement.columns? = some (Column.projected columns) := by
  rw [select] at built
  obtain ⟨_, _, built⟩ := bind_eq_ok.mp built
  obtain ⟨condition, _, built⟩ := bind_eq_ok.mp built
  obtain ⟨order, _, built⟩ := bind_eq_ok.mp built
  obtain rfl := pure_eq_ok.mp built
  refine Statement.columns?_of_text (conditionPart condition ++ " ORDER BY " ++ order) ?_ ?_
  · simp only [String.append_assoc]
  · cases condition <;> simp [conditionPart]

theorem Batch.columns?_statement (batch : Batch) :
    batch.statement.columns? = some (Column.projected batch.columns.names) := by
  refine Statement.columns?_of_text (" WHERE ARRAY_CONTAINS(" ++ idsParameter ++ ", " ++
    Column.reference Column.id ++ ")") ?_ ?_
  · simp only [statement, String.append_assoc]
  · simp

end DocGraph
