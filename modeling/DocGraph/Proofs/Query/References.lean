import DocGraph.Proofs.Query.Rendering
import DocGraph.Proofs.Schema.Compiled

namespace DocGraph

open Json
open Token (Spells Leads Closes)

namespace Token

def column? : Token → Option String
  | column name => some name
  | _ => none

/-- The columns that a text refers to, from left to right. -/
def columns (text : String) : List String := (ofChars text.toList).filterMap column?

/-- Fixed text that ends whatever comes before it, has ended before whatever follows it, and
refers to no column. -/
def Parts (text : String) : Prop :=
  Closes text (ofChars text.toList) ∧ Leads text (ofChars text.toList) ∧ columns text = []

instance (text : String) : Decidable (Parts text) := inferInstanceAs (Decidable (_ ∧ _ ∧ _))

end Token

/-- A text that refers to allowed columns only, wherever it is followed by a delimiter. -/
def Refers (allowed : String → Prop) (text : String) : Prop :=
  ∃ tokens, Spells text tokens ∧ ∀ name ∈ tokens.filterMap Token.column?, allowed name

namespace Refers

variable {allowed : String → Prop} {text back fixed joiner empty : String} {texts : List String}
  {middle : List Token}

theorem allowed_of_mem (refers : Refers allowed text) :
    ∀ name ∈ Token.columns text, allowed name := by
  obtain ⟨tokens, spells, confined⟩ := refers
  rwa [Token.columns, spells.ofChars_eq]

theorem reference {name : String} (permitted : allowed name) :
    Refers allowed (Column.reference name) :=
  ⟨_, Spells.reference name, by simpa [Token.column?] using permitted⟩

theorem literal (unquoted : '[' ∉ text.toList) (silent : Token.columns text = []) :
    Refers allowed text := by
  rw [Token.columns] at silent
  refine ⟨_, Spells.of_unquoted unquoted, ?_⟩
  rw [silent]
  exact nofun

theorem lead (leads : Leads fixed middle) (silent : middle.filterMap Token.column? = [])
    (refers : Refers allowed text) : Refers allowed (fixed ++ text) := by
  obtain ⟨tokens, spells, confined⟩ := refers
  exact ⟨_, Spells.lead leads spells, by simpa [List.filterMap_append, silent] using confined⟩

theorem close (refers : Refers allowed text) (closes : Closes fixed middle)
    (silent : middle.filterMap Token.column? = []) : Refers allowed (text ++ fixed) := by
  obtain ⟨tokens, spells, confined⟩ := refers
  exact ⟨_, spells.close closes, by simpa [List.filterMap_append, silent] using confined⟩

theorem between (refers : Refers allowed text) (parts : Token.Parts fixed)
    (next : Refers allowed back) : Refers allowed (text ++ fixed ++ back) := by
  obtain ⟨tokens, spells, confined⟩ := refers
  obtain ⟨tokens', spells', confined'⟩ := next
  obtain ⟨closes, leads, silent⟩ := parts
  refine ⟨_, spells.between closes leads spells', fun name member => ?_⟩
  rw [Token.columns] at silent
  rw [List.filterMap_append, List.filterMap_append, silent, List.append_nil] at member
  exact (List.mem_append.mp member).elim (confined name) (confined' name)

theorem intercalate (parts : Token.Parts fixed) (each : ∀ text ∈ texts, Refers allowed text)
    (nonempty : texts ≠ []) : Refers allowed (fixed.intercalate texts) := by
  induction texts with
  | nil => contradiction
  | cons first rest ih =>
      obtain ⟨head, others⟩ := List.forall_mem_cons.mp each
      cases rest with
      | nil => simpa using head
      | cons second rest =>
          have joined := head.between parts (ih others (by simp))
          rwa [← String.intercalate_cons_of_ne_nil (by simp)] at joined

theorem group (parts : Token.Parts joiner) (unquoted : '[' ∉ empty.toList)
    (silent : Token.columns empty = []) (each : ∀ text ∈ texts, Refers allowed text) :
    Refers allowed (Condition.group joiner empty texts) := by
  cases texts with
  | nil => exact literal unquoted silent
  | cons first others =>
      have inner := intercalate parts each (by simp)
      have opened : Leads "(" [.opening] := by decide
      have closed : Closes ")" [.closing] := by decide
      exact (inner.lead opened rfl).close closed rfl

end Refers

theorem Operation.columns_tokens (operation : Operation) (left right : Token) :
    (operation.tokens left right).filterMap Token.column? =
      [left, right].filterMap Token.column? := by
  rcases operation with ⟨symbol, _ | _⟩ | _ | ⟨_ | _⟩ | ⟨_ | _⟩ | _ <;>
    simp [tokens, Token.column?, List.filterMap_cons]

theorem Clause.refers {clause : Clause} {allowed : String → Prop} {first second : String}
    {left right : Token} (operands : clause.atom.operands = (first, second))
    (spells : Spells first [left]) (spells' : Spells second [right])
    (permitted : ∀ name ∈ [left, right].filterMap Token.column?, allowed name) :
    Refers allowed clause.text := by
  have leftSpells : Spells clause.atom.operands.1 [left] := by rwa [operands]
  have rightSpells : Spells clause.atom.operands.2 [right] := by rwa [operands]
  have atom : Refers allowed clause.atom.text := by
    refine ⟨_, clause.atom.spells leftSpells rightSpells, ?_⟩
    rwa [Operation.columns_tokens]
  have negation : Leads "NOT " [.notWord] := by decide
  rw [text]
  split
  · exact atom.lead negation rfl
  · exact atom

namespace Catalog

variable {catalog : Catalog} {typename : String} {parameters : Parameters}
  {allowed : String → Prop}

theorem testClause_refers {test : Test} {clause : Clause}
    (compiled : catalog.testClause typename parameters test = .ok clause)
    (resolves : ∀ column, catalog.testColumn typename test = .ok column → allowed column) :
    Refers allowed clause.text := by
  obtain ⟨column, name, resolved, given, accepted⟩ := testClause_eq_ok compiled
  obtain ⟨_, _, operands⟩ := Clause.ofComparison_spec accepted
  obtain ⟨place, _, rfl⟩ := Option.map_eq_some_iff.mp given
  have permitted := resolves column resolved
  split at operands
  · exact Clause.refers operands (.parameter place) (.reference column)
      (by simpa [Token.column?] using permitted)
  · exact Clause.refers operands (.reference column) (.parameter place)
      (by simpa [Token.column?] using permitted)

/-- The tests of some filters resolve to allowed columns only. -/
def Resolves (catalog : Catalog) (typename : String) (allowed : String → Prop)
    (tests : List Test) : Prop :=
  ∀ test ∈ tests, ∀ column, catalog.testColumn typename test = .ok column → allowed column

mutual

theorem condition_refers : ∀ (filter : Filter) {condition : Condition},
    catalog.condition typename parameters filter = .ok condition →
      catalog.Resolves typename allowed filter.tests → Refers allowed condition.text
  | .test test, condition, compiled, resolves => by
      rw [Catalog.condition] at compiled
      obtain ⟨clause, single, rfl⟩ := map_eq_ok.mp compiled
      exact testClause_refers single (resolves test (by simp [Filter.tests]))
  | .all children, condition, compiled, resolves => by
      rw [Catalog.condition] at compiled
      obtain ⟨parts, inner, rfl⟩ := map_eq_ok.mp compiled
      exact Refers.group (by decide) (by decide) (by decide)
        (conditions_refer children inner resolves)
  | .any children, condition, compiled, resolves => by
      rw [Catalog.condition] at compiled
      obtain ⟨parts, inner, rfl⟩ := map_eq_ok.mp compiled
      exact Refers.group (by decide) (by decide) (by decide)
        (conditions_refer children inner resolves)

theorem conditions_refer : ∀ (filters : List Filter) {parts : List Condition},
    catalog.conditions typename parameters filters = .ok parts →
      catalog.Resolves typename allowed (Filter.testsOf filters) →
        ∀ text ∈ Condition.texts parts, Refers allowed text
  | [], parts, compiled, _ => by
      obtain rfl : [] = parts := by simpa [conditions] using compiled
      exact nofun
  | first :: rest, parts, compiled, resolves => by
      obtain ⟨head, tail, headed, tailed, rfl⟩ := conditions_cons_eq_ok compiled
      rw [Filter.testsOf] at resolves
      obtain ⟨front, back⟩ := List.forall_mem_append.mp resolves
      exact List.forall_mem_cons.mpr
        ⟨condition_refers first headed front, conditions_refer rest tailed back⟩

end

/-- The text of a condition refers to the columns that its tests resolve to. -/
theorem columns_filterText {filters : List Filter} {text : String}
    (compiled : catalog.filterText typename filters parameters = .ok (some text)) :
    ∀ name ∈ Token.columns text,
      ∃ test ∈ Filter.testsOf filters, catalog.testColumn typename test = .ok name := by
  obtain ⟨parts, inner, topLevel⟩ := map_eq_ok.mp compiled
  have resolves : catalog.Resolves typename
      (fun name => ∃ test ∈ Filter.testsOf filters, catalog.testColumn typename test = .ok name)
      (Filter.testsOf filters) := fun test member _ resolved => ⟨test, member, resolved⟩
  have each := conditions_refer filters inner resolves
  cases parts with
  | nil => cases topLevel
  | cons first rest =>
      cases topLevel
      exact (Refers.intercalate (by decide) each (List.cons_ne_nil _ _)).allowed_of_mem

theorem orderText_refers {column : String} (permitted : allowed column) (direction : Direction) :
    Refers allowed (orderText column direction) := by
  cases direction with
  | ascending => exact .reference permitted
  | descending =>
      have descends : Closes " DESC" [.word "DESC"] := by decide
      exact (Refers.reference permitted).close descends rfl

theorem mem_sortOrder {keys : List SortKey} {order : List (String × Direction)}
    (sorted : catalog.sortOrder typename keys = .ok order) :
    order ≠ [] ∧ ∀ column direction, (column, direction) ∈ order →
      column = Column.id ∨ ∃ key ∈ keys, catalog.sortColumn typename key = .ok column := by
  obtain ⟨given, mapped, sorted⟩ := bind_eq_ok.mp sorted
  obtain rfl := pure_eq_ok.mp sorted
  have named : ∀ column direction, (column, direction) ∈ given →
      ∃ key ∈ keys, catalog.sortColumn typename key = .ok column := by
    intro column direction member
    obtain ⟨key, inside, stepped⟩ := mem_of_mapM_ok mapped member
    obtain ⟨found, resolved, same⟩ := map_eq_ok.mp stepped
    cases same
    exact ⟨key, inside, resolved⟩
  split
  · next identified =>
      refine ⟨?_, fun column direction member => .inr (named column direction member)⟩
      rintro rfl
      contradiction
  · refine ⟨by simp, fun column direction member => ?_⟩
    rcases List.mem_append.mp member with given | last
    · exact .inr (named column direction given)
    · cases List.mem_singleton.mp last
      exact .inl rfl

/-- The text of an order refers to the columns of its sort keys and to the identifying one. -/
theorem columns_sortText {keys : List SortKey} {text : String}
    (sorted : catalog.sortText typename keys = .ok text) :
    ∀ name ∈ Token.columns text,
      name = Column.id ∨ ∃ key ∈ keys, catalog.sortColumn typename key = .ok name := by
  obtain ⟨order, ordered, rfl⟩ := map_eq_ok.mp sorted
  obtain ⟨nonempty, named⟩ := mem_sortOrder ordered
  refine (Refers.intercalate (by decide) (fun text member => ?_) (by simpa)).allowed_of_mem
  obtain ⟨⟨column, direction⟩, inside, rfl⟩ := List.mem_map.mp member
  exact orderText_refers (named column direction inside) direction

end Catalog

end DocGraph
