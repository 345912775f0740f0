import DocGraph.Proofs.Query.FilterInput
import DocGraph.Proofs.Query.References
import DocGraph.Proofs.Resolve.OneRecord
import DocGraph.Proofs.Resolve.Tables
import DocGraph.Proofs.Schema.Shadowing

/-!
# What lookups lead to

The tables of a compiled graph agree with its schema and with each other. All of them lead to
the last field with a joined name, the table of resolvers to the resolver of the very field that
the table of fields leads to. Where no type has a dot in its name, a where clause and an order
refer to columns that fields of the type expose, and to the identifying one.
-/

namespace DocGraph

open Catalog (FieldTable)

namespace Catalog

variable {schema : Schema} {typename column : String}

theorem offers_of_testColumn (undotted : '.' ∉ typename.toList)
    (others : ∀ other ∈ schema.typenames, '.' ∉ other.toList) {test : Test}
    (resolved : (ofSchema schema).testColumn typename test = .ok column) :
    column = Column.id ∨ (∃ field, schema.Offers .filters typename column field) ∨
      test.target = .column column := by
  unfold testColumn at resolved
  cases target : test.target with
  | column name =>
      rw [target] at resolved
      cases resolved
      exact .inr (.inr rfl)
  | key key =>
      simp only [target] at resolved
      split at resolved
      · next field found =>
          split at resolved
          · cases resolved
            have offers : schema.Offers .filters typename _ field :=
              Schema.offers_of_find? undotted others found
            obtain ⟨entity, holder, named, inside, lists⟩ := offers
            cases lists with
            | filter filterable =>
                exact .inr (.inl ⟨field, entity, holder, named, inside, .filter filterable⟩)
          · contradiction
      · split at resolved
        · cases resolved
          exact .inl rfl
        · contradiction

theorem offers_of_sortColumn (undotted : '.' ∉ typename.toList)
    (others : ∀ other ∈ schema.typenames, '.' ∉ other.toList) {key : SortKey}
    (resolved : (ofSchema schema).sortColumn typename key = .ok column) :
    column = Column.id ∨ ∃ field, schema.Offers .sorts typename column field := by
  obtain ⟨name, direction⟩ := key
  simp only [sortColumn] at resolved
  split at resolved
  · next field found =>
      cases resolved
      have offers : schema.Offers .sorts typename _ field :=
        Schema.offers_of_find? undotted others found
      obtain ⟨entity, holder, named, inside, lists⟩ := offers
      cases lists with
      | sort sortable => exact .inr ⟨field, entity, holder, named, inside, .sort sortable⟩
  · split at resolved
    · cases resolved
      exact .inl rfl
    · contradiction

end Catalog

/-- The tests of client input are tests of client keys. -/
theorem Filter.target_of_ofInput {input : Json.Value} {filters : List Filter}
    (accepted : ofInput input = .ok filters) {test : Test} (member : test ∈ testsOf filters) :
    ∃ key, test.target = .key key := by
  obtain ⟨leaf, _, key, _, _, rfl⟩ :=
    mem_of_forall₂ (represented_of_ofInput input accepted).gives member
  exact ⟨key.field, rfl⟩

/-- What is found in a type is what the type itself has. A text that compiles for it refers to no
other columns, except where a filter names a stored column, which client input cannot do. -/
structure Schema.FindsOwn (schema : Schema) (catalog : Catalog) (typename : String) : Prop where
  searched : ∀ name,
    catalog.field? typename name = (schema.searchEntity? typename).bind (·.searchField? name)
  own : ∀ (table : FieldTable) name field, table.find? catalog typename name = some field →
    schema.Offers table typename name field
  condition : ∀ filters parameters text,
    catalog.filterText typename filters parameters = .ok (some text) →
      ∀ column ∈ Token.columns text, column = Column.id ∨
        (∃ field, schema.Offers .filters typename column field) ∨
          ∃ test ∈ Filter.testsOf filters, test.target = .column column
  clientCondition : ∀ input filters, Filter.ofInput input = .ok filters → ∀ parameters text,
    catalog.filterText typename filters parameters = .ok (some text) →
      ∀ column ∈ Token.columns text, column = Column.id ∨
        ∃ field, schema.Offers .filters typename column field
  order : ∀ keys text, catalog.sortText typename keys = .ok text →
    ∀ column ∈ Token.columns text, column = Column.id ∨
      ∃ field, schema.Offers .sorts typename column field

theorem Schema.findsOwn_of_compile {schema : Schema} {database : Option String}
    {decls : List TypeDecl} (compiled : compile database decls = .ok schema) {typename : String}
    (undotted : '.' ∉ typename.toList)
    (others : ∀ other ∈ schema.typenames, '.' ∉ other.toList) :
    schema.FindsOwn (.ofSchema schema) typename := by
  have condition : ∀ filters parameters text,
      (Catalog.ofSchema schema).filterText typename filters parameters = .ok (some text) →
        ∀ column ∈ Token.columns text, column = Column.id ∨
          (∃ field, schema.Offers .filters typename column field) ∨
            ∃ test ∈ Filter.testsOf filters, test.target = .column column := by
    intro filters parameters text written column named
    obtain ⟨test, member, resolved⟩ := Catalog.columns_filterText written column named
    exact (Catalog.offers_of_testColumn undotted others resolved).imp_right
      (·.imp_right fun raw => ⟨test, member, raw⟩)
  refine ⟨field?_eq_search compiled undotted others,
    fun _ _ _ found => offers_of_find? undotted others found, condition, ?_, ?_⟩
  · intro input filters accepted parameters text written column named
    rcases condition filters parameters text written column named with same | offered | raw
    · exact .inl same
    · exact .inr offered
    · obtain ⟨test, member, raw⟩ := raw
      obtain ⟨key, target⟩ := Filter.target_of_ofInput accepted member
      cases raw.symm.trans target
  · intro keys text written column named
    rcases Catalog.columns_sortText written column named with same | ⟨key, _, resolved⟩
    · exact .inl same
    · exact Catalog.offers_of_sortColumn undotted others resolved

namespace Graph

/-- The resolver of a name is that of the last field with the joined name. -/
theorem lookup?_resolversOf_eq_some_iff {schema : Schema} {joined : String}
    {resolver : FieldResolver} :
    (resolversOf (.ofSchema schema)).lookup? joined = some resolver ↔
      ∃ entity field, schema.LastJoined .fields joined entity field ∧
        ⟨entity.typename, field, Strategy.select (.ofSchema schema) entity field⟩ = resolver := by
  simp only [lookup?_resolversOf, Schema.lastJoined_iff, FieldTable.name?, Option.map_some,
    Option.some.injEq, Option.map_eq_some_iff, Prod.exists]

/-- Each table of a compiled graph leads to the last field in schema order that has a joined
name, and to none exactly if there is none. The resolvers are those of the fields. Where names
of types have no dot, lookups in a type find what the type has. -/
theorem lookups_follow_schema {graph : Graph} {decls : List TypeDecl}
    (compiled : graph.CompiledFrom decls) :
    ∃ schema, Schema.compile graph.settings.schema.defaultDatabase decls = .ok schema ∧
      (∀ (table : FieldTable) typename name,
        (∀ field, table.find? graph.catalog typename name = some field ↔
          ∃ entity, schema.LastJoined table (joinedName typename name) entity field) ∧
        (table.find? graph.catalog typename name = none ↔
          ∀ entity field, (entity, field) ∈ schema.fields → ∀ listed, table.Lists field listed →
            joinedName entity.typename listed ≠ joinedName typename name)) ∧
      (∀ typename name,
        (graph.resolver? typename name).map (·.field) = graph.catalog.field? typename name ∧
        ∀ resolver, graph.resolver? typename name = some resolver ↔
          ∃ entity field, schema.LastJoined .fields (joinedName typename name) entity field ∧
            ⟨entity.typename, field, Strategy.select graph.catalog entity field⟩ = resolver) ∧
      ∀ typename, '.' ∉ typename.toList → (∀ other ∈ schema.typenames, '.' ∉ other.toList) →
        schema.FindsOwn graph.catalog typename := by
  obtain ⟨schema, settled, catalog, resolvers⟩ := compiled.exists_schema
  have fields := compiled.resolver?
  rw [catalog] at fields ⊢
  refine ⟨schema, settled, fun table typename name => ?_, fun typename name => ?_, ?_⟩
  · exact ⟨fun field => Schema.find?_eq_some_iff, Schema.find?_eq_none_iff⟩
  · refine ⟨fields typename name, fun resolver => ?_⟩
    rw [Graph.resolver?, resolvers]
    exact lookup?_resolversOf_eq_some_iff
  · exact fun typename undotted others =>
      Schema.findsOwn_of_compile settled undotted others

namespace Overlap

/-- A field of one type and a field of another have one joined name. -/
def decls : List TypeDecl := [
  (TypeDecl.named "A").withField (.named "b.c" "String"),
  (TypeDecl.named "A.b").withField (.named "c" "String")]

def stored (fieldname : String) : Field := Scope.Owned.stored fieldname "String" .embedded

def schema : Schema := ⟨[
  ⟨"A", .unknown, false, [stored "b.c"]⟩,
  ⟨"A.b", .unknown, false, [stored "c"]⟩]⟩

def graph : Graph := .ofCatalog (.ofSchema schema) {}

theorem settled : Schema.compile none decls = .ok schema := by
  simp only [Schema.compile, Schema.build, Schema.ofDecls, Schema.compileTypes, TypeDecl.compile,
    mergeSort_eq_insertionSort]
  rfl

theorem compiled : graph.CompiledFrom decls := Graph.compiledFrom_ofSchema settled

/-- The field of the later type is found in the earlier one. -/
theorem lookups_follow_schema_overlap : graph.CompiledFrom decls ∧
    ∃ entity, schema.LastJoined .fields "A.b.c" entity (stored "c") := by
  obtain ⟨found, made, lookups, _⟩ := lookups_follow_schema compiled
  obtain rfl : schema = found := Except.ok.inj (settled.symm.trans made)
  exact ⟨compiled, ((lookups .fields "A" "b.c").1 (stored "c")).mp (by decide)⟩

end Overlap

end Graph

end DocGraph
