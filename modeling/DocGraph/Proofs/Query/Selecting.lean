import DocGraph.Proofs.Loader.Documents
import DocGraph.Proofs.Query.Matching

/-!
# What a query selects

The tokens of a select tell its columns and its condition: the columns stand before a word,
and the condition ends where the order begins. A store that reads them answers a query
with the columns of the documents that the condition is true of.
-/

namespace DocGraph

open Json
open Token (Spells Leads Closes)

namespace Token

/-- The columns that are listed before `FROM`, and what follows it. -/
def columnsFrom? : List Token → Option (List String × List Token)
  | .column name :: .comma :: rest =>
    (columnsFrom? rest).map fun (names, others) => (name :: names, others)
  | .column name :: .word "FROM" :: rest => some ([name], rest)
  | _ => none

/-- The columns and the condition of a select. -/
def selection? : List Token → Option (List String × List Token)
  | .word "SELECT" :: rest =>
    match columnsFrom? rest with
    | some (columns, .word "c" :: .word "WHERE" :: others) =>
      some (columns, others.takeWhile (· ≠ .word "ORDER"))
    | _ => none
  | _ => none

def listed : List String → List Token
  | [] => []
  | [name] => [.column name]
  | name :: rest => .column name :: .comma :: listed rest

theorem columnsFrom?_listed {names : List String} (nonempty : names ≠ []) (rest : List Token) :
    columnsFrom? (listed names ++ .word "FROM" :: rest) = some (names, rest) := by
  induction names with
  | nil => contradiction
  | cons name names ih =>
      cases names with
      | nil => rfl
      | cons next others =>
          have later := ih (List.cons_ne_nil _ _)
          simp only [listed, List.cons_append, columnsFrom?]
          rw [later]
          rfl

theorem Spells.references {names : List String} (nonempty : names ≠ []) :
    Spells (", ".intercalate (names.map Column.reference)) (listed names) := by
  induction names with
  | nil => contradiction
  | cons name names ih =>
      cases names with
      | nil => simpa [listed] using Spells.reference name
      | cons next others =>
          have comma : Closes ", " [.comma] ∧ Leads ", " [.comma] := by decide
          have joined :=
            (Spells.reference name).between comma.1 comma.2 (ih (List.cons_ne_nil _ _))
          rw [List.map_cons, List.map_cons, String.intercalate_cons_cons]
          exact joined

theorem Leads.ofChars_append {fixed : String} {tokens : List Token} (leads : Leads fixed tokens)
    (rest : List Char) : ofChars (fixed.toList ++ rest) = tokens ++ ofChars rest := by
  obtain ⟨unquoted, ends, rfl⟩ := leads
  obtain ⟨last, here, delimiter⟩ := (Option.any_eq_true _ _).mp ends
  rw [ofChars, Lexeme.ofPlain_append unquoted (.inr ⟨last, here, of_decide_eq_true delimiter⟩),
    List.filterMap_append]
  rfl

theorem takeWhile_order {tokens : List Token} (plain : .word "ORDER" ∉ tokens) {ending : String}
    (ends : ending = "" ∨ ∃ order, ending = " ORDER BY " ++ order) :
    (tokens ++ ofChars ending.toList).takeWhile (· ≠ .word "ORDER") = tokens := by
  have kept : ∀ token ∈ tokens, decide (token ≠ .word "ORDER") = true := by
    intro token member
    refine decide_eq_true ?_
    rintro rfl
    exact plain member
  rw [List.takeWhile_append_of_pos kept]
  rcases ends with rfl | ⟨order, rfl⟩
  · simp [ofChars, Lexeme.ofPlain]
  · have leads : Leads " ORDER BY " [.word "ORDER", .word "BY"] := by decide
    rw [String.toList_append, leads.ofChars_append]
    simp

end Token

theorem Column.projected_ne_nil (columns : List String) : Column.projected columns ≠ [] :=
  List.ne_nil_of_mem (Column.mem_projected.mpr (.inl rfl))

theorem Reading.not_order {truth : Fact → Bool} {precedence : Precedence} {tokens : List Token}
    {value : Bool} (reading : Reading truth precedence tokens value) :
    .word "ORDER" ∉ tokens := by
  induction reading with
  | fact fact =>
      obtain ⟨operation, left, right⟩ := fact
      cases left <;> cases right <;>
        rcases operation with ⟨symbol, _ | _⟩ | _ | ⟨_ | _⟩ | ⟨_ | _⟩ | _ <;>
        simp [Fact.tokens, Operation.tokens, Operand.token]
  | literal value => simp
  | not _ ih => simpa using ih
  | group _ ih => simpa using ih
  | factor _ ih => exact ih
  | and _ _ ih ih' => simpa using ⟨ih, ih'⟩
  | conjunction _ ih => exact ih
  | or _ _ ih ih' => simpa using ⟨ih, ih'⟩

namespace Statement

def selection? (statement : Statement) : Option (List String × List Token) :=
  Token.selection? (Token.ofChars statement.text.toList)

theorem selection?_of_spells {statement : Statement} {columns : List String} {condition : String}
    {tokens : List Token} (spells : Spells condition tokens) (plain : .word "ORDER" ∉ tokens)
    {ending : String} (ends : ending = "" ∨ ∃ order, ending = " ORDER BY " ++ order)
    (text : statement.text = "SELECT " ++ Column.projection columns ++ " FROM c WHERE " ++
      condition ++ ending) :
    statement.selection? = some (Column.projected columns, tokens) := by
  have nonempty := Column.projected_ne_nil columns
  have opened : Leads "SELECT " [.word "SELECT"] := by decide
  have middle : Closes " FROM c WHERE " [.word "FROM", .word "c", .word "WHERE"] ∧
      Leads " FROM c WHERE " [.word "FROM", .word "c", .word "WHERE"] := by decide
  have whole := (Spells.lead opened (Spells.references nonempty)).between middle.1 middle.2 spells
  have boundary : Lexeme.Boundary ending.toList := by
    rcases ends with rfl | ⟨order, rfl⟩
    · trivial
    · rw [String.toList_append]
      exact .inl rfl
  have read := whole ending.toList boundary
  rw [← String.toList_append] at read
  rw [selection?, text, Column.projection, read]
  simp only [List.cons_append, List.nil_append, List.append_assoc, Token.selection?]
  rw [Token.columnsFrom?_listed nonempty]
  simp only [Token.takeWhile_order plain ends]

end Statement

/-- The rows of the documents with given ids, in the order of the documents. -/
def Documents.rowsWith (documents : Documents) (location : Location) (ids columns : List String) :
    List Value :=
  ((documents location).filter fun document => (Record.idOf? document).any (· ∈ ids)).map
    (·.cutTo columns)

open Classical in
/-- The rows of a query that selects columns under a condition: of every document that the
condition is true of, the columns. -/
noncomputable def Comparer.selected (comparer : Comparer) (documents : Documents)
    (query : StoreQuery) (columns : List String) (condition : List Token) : List Value :=
  ((documents query.location).filter fun document =>
    Reading (comparer.truth document query.statement) .disjunction condition true).map
      (·.cutTo columns)

/-- A condition that asks for ids selects the documents with them. -/
theorem Comparer.selected_eq_rowsWith {comparer : Comparer} {query : StoreQuery}
    {condition : List Token} {ids : List String} (documents : Documents) (columns : List String)
    (asks : ∀ document,
      Reading (comparer.truth document query.statement) .disjunction condition true ↔
        ∃ id ∈ ids, document.get? Column.id = some (.string id)) :
    comparer.selected documents query columns condition =
      documents.rowsWith query.location ids columns := by
  classical
  have alike : ∀ document, (Record.idOf? document).any (· ∈ ids) = true ↔
      Reading (comparer.truth document query.statement) .disjunction condition true := by
    intro document
    rw [asks, Option.any_eq_true]
    simp only [Record.idOf?_eq_some, decide_eq_true_eq]
    exact ⟨fun ⟨id, held, wanted⟩ => ⟨id, wanted, held⟩,
      fun ⟨id, wanted, held⟩ => ⟨id, held, wanted⟩⟩
  unfold selected Documents.rowsWith
  congr 1
  refine List.filter_congr fun document _ => ?_
  rw [Bool.eq_iff_iff, decide_eq_true_eq, alike]

namespace Batch

def idsFact : Fact := ⟨.member false, .parameter idsParameter, .column Column.id⟩

variable (batch : Batch)

theorem selection?_statement :
    batch.statement.selection? =
      some (Column.projected batch.columns.names, idsFact.tokens) := by
  have parameter : Spells idsParameter [.parameter idsParameter] := by
    have read : Token.ofWord idsParameter.toList = .parameter idsParameter := by decide
    have wordy : idsParameter.toList.all Lexeme.isWordChar = true := by decide
    rw [← read]
    exact Spells.word (by decide) (List.all_eq_true.mp wordy)
  have opened : Leads "ARRAY_CONTAINS(" [.word "ARRAY_CONTAINS", .opening] := by decide
  have closed : Closes ")" [.closing] := by decide
  have spells : Spells ("ARRAY_CONTAINS(" ++ idsParameter ++ ", " ++ Column.reference Column.id ++
      ")") idsFact.tokens :=
    Atom.call_spells opened parameter (Spells.reference Column.id) closed
  refine Statement.selection?_of_spells spells (by decide) (.inl rfl) ?_
  have opening : " FROM c WHERE ".toList ++ "ARRAY_CONTAINS(".toList =
      " FROM ".toList ++ (Column.document.toList ++ " WHERE ARRAY_CONTAINS(".toList) := by decide
  refine String.toList_inj.mp ?_
  simp only [statement, String.toList_append, List.append_assoc]
  rw [← List.append_assoc " FROM c WHERE ".toList, opening]
  simp only [List.append_assoc]
  rfl

theorem reading_idsFact (comparer : Comparer) (document : Value) :
    Reading (comparer.truth document batch.statement) .disjunction idsFact.tokens true ↔
      ∃ id ∈ batch.ids.names, document.get? Column.id = some (.string id) := by
  have held : comparer.truth document batch.statement idsFact =
      comparer.compares ⟨.oneOf, false⟩ (document.get? Column.id) (.texts batch.ids.names) := by
    simp [Comparer.compares, Comparison.negates, Operator.isPlural, Value.texts, Value.isArray,
      Comparison.operation, Comparer.truth, idsFact, Operand.valueIn, statement,
      Statement.parameter?]
  have reading : Reading (comparer.truth document batch.statement) .disjunction idsFact.tokens
      (comparer.truth document batch.statement idsFact) := .conjunction (.factor (.fact _))
  rw [← Comparer.compares_oneOf_texts, ← held]
  constructor
  · exact fun read => reading.value_eq read
  · intro same
    rwa [same] at reading

theorem selected_query (comparer : Comparer) (documents : Documents) (context : RequestContext) :
    comparer.selected documents (batch.query context) (Column.projected batch.columns.names)
        idsFact.tokens =
      documents.rowsWith batch.location batch.ids.names
        (Column.projected batch.columns.names) :=
  Comparer.selected_eq_rowsWith documents _ (batch.reading_idsFact comparer)

end Batch

namespace Catalog

variable {catalog : Catalog} {typename : String} {columns : List String} {first : Filter}
  {filters : List Filter} {keys : List SortKey} {statement : Statement}

theorem spells_filterText {parameters : Parameters} {condition : String}
    (compiled : catalog.filterText typename filters parameters = .ok (some condition)) :
    Spells condition (Token.ofChars condition.toList) ∧
      .word "ORDER" ∉ Token.ofChars condition.toList := by
  obtain ⟨parts, inner, written⟩ := map_eq_ok.mp compiled
  have factors := conditions_mean filters inner
  cases parts with
  | nil => contradiction
  | cons head tail =>
      obtain rfl := Option.some.inj written
      obtain ⟨tokens, spells, reading⟩ := Means.all factors (List.cons_ne_nil _ _)
      rw [spells.ofChars_eq]
      exact ⟨spells, (reading fun _ => false).not_order⟩

/-- A compiled select lists its columns, and its condition reads as its filters hold. -/
theorem selection?_select
    (built : catalog.select typename columns (first :: filters) keys = .ok statement) :
    ∃ condition, statement.selection? = some (Column.projected columns, condition) ∧
      ∀ (comparer : Comparer) (document : Value) (value : Bool),
        Reading (comparer.truth document statement) .disjunction condition value ↔
          value = Filter.allHold (comparer.satisfies catalog typename document)
            (first :: filters) := by
  rw [select] at built
  obtain ⟨_, _, built⟩ := bind_eq_ok.mp built
  obtain ⟨text, compiled, built⟩ := bind_eq_ok.mp built
  obtain ⟨order, _, built⟩ := bind_eq_ok.mp built
  obtain ⟨condition, rfl⟩ := filterText_eq_some compiled
  obtain rfl := pure_eq_ok.mp built
  obtain ⟨spells, plain⟩ := spells_filterText compiled
  refine ⟨_, Statement.selection?_of_spells spells plain (.inr ⟨order, rfl⟩) ?_,
    reading_filterText compiled rfl⟩
  have opening : " FROM c WHERE " = " FROM " ++ (Column.document ++ " WHERE ") := by decide
  simp only [conditionPart, opening, String.append_assoc]

end Catalog

end DocGraph
