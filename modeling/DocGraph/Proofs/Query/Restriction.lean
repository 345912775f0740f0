import DocGraph.Proofs.Query.Acceptance
import DocGraph.Proofs.Query.Matching
import DocGraph.Proofs.Schema.Lookup

/-!
# Restrictions of operators

A field may list the operators that clients may compare its column by. Fields of one type
that share a column are not looked at together: the last of them alone decides, and the
list of any other is kept only as far as that field agrees with it.
-/

namespace DocGraph

open Json

namespace Catalog

/-- No statement has a test of a client key by an operator. -/
def Forbids (catalog : Catalog) (typename key : String) (operator : Operator) : Prop :=
  ∀ filters : List Filter, (∃ test ∈ Filter.testsOf filters,
      test.target = .key key ∧ test.comparison.operator = operator) →
    ∀ statement, ¬ catalog.Builds typename filters statement

variable {catalog : Catalog} {typename key : String} {operator : Operator}

theorem Builds.accepts {filters : List Filter} {statement : Statement}
    (builds : catalog.Builds typename filters statement) :
    ∃ keys, catalog.Accepts typename filters keys := by
  cases builds with
  | @select columns keys built =>
      have sound := fault?_eq_none.mpr ⟨_, built⟩
      rw [fault?_select] at sound
      exact ⟨keys, accepts_iff.mp sound⟩
  | count built =>
      have sound := fault?_eq_none.mpr ⟨_, built⟩
      rw [fault?_count] at sound
      exact ⟨[], accepts_iff.mp sound⟩

/-- Apart from the identifying column, the field of a key decides alone. -/
theorem forbids_iff (known : ∃ entity, catalog.entity? typename = some entity)
    (other : key ≠ Column.id) :
    catalog.Forbids typename key operator ↔
      ∀ field, catalog.filterField? typename key = some field → field.allows operator = false := by
  constructor
  · intro forbids field found
    cases allowed : field.allows operator with
    | false => rfl
    | true =>
        let test : Test := ⟨.key key, ⟨operator, false⟩, .boolean true⟩
        have only : Filter.testsOf [.test test] = [test] := rfl
        have permitted : catalog.Permits typename test := ⟨.field found allowed, fun _ => rfl⟩
        have accepted : catalog.Accepts typename [.test test] [] :=
          ⟨known, by simpa [only] using permitted, nofun⟩
        have sound := accepts_iff.mpr accepted
        rw [← fault?_count] at sound
        obtain ⟨statement, built⟩ := fault?_eq_none.mp sound
        exact absurd (.count built)
          (forbids [.test test] ⟨test, by simp [only], rfl, rfl⟩ statement)
  · intro refuses filters asked statement builds
    obtain ⟨test, member, target, same⟩ := asked
    obtain ⟨keys, accepted⟩ := builds.accepts
    have admitted := (accepted.tests test member).target
    rw [target, same] at admitted
    cases admitted with
    | field found allowed => simp [refuses _ found] at allowed
    | identifier => exact other rfl

theorem entity?_of_mem {schema : Schema} {entity : Entity} (member : entity ∈ schema.entities) :
    ∃ found, (ofSchema schema).entity? entity.typename = some found := by
  obtain ⟨found, required⟩ := Graph.requireEntity_of_mem (List.mem_map_of_mem member)
  exact requires_iff.mp (fault?_eq_none.mpr ⟨found, mapError_eq_ok.mpr required⟩)

/-- The operators that a field lists are all that clients may compare its column by exactly
if no other field that the column leads to allows more. -/
theorem restriction_kept_iff {database : Option String} {decls : List TypeDecl} {schema : Schema}
    (compiled : Schema.compile database decls = .ok schema)
    (undotted : ∀ decl ∈ decls, '.' ∉ decl.typename.toList) {entity : Entity} {field : Field}
    (member : (entity, field) ∈ schema.fields) {operators : List Operator}
    (explicit : field.filterOps = some operators) (other : field.filterColumn ≠ Column.id) :
    (∀ operator, operator ∉ operators →
        (ofSchema schema).Forbids entity.typename field.filterColumn operator) ↔
      ∀ rival, rival ≠ field → entity.lastNamed? filterName? field.filterColumn = some rival →
        ∀ operator, rival.allows operator = true → operator ∈ operators := by
  obtain ⟨holder, _⟩ := Schema.mem_fields.mp member
  have plain := Schema.plainTypes_of_compile compiled undotted
  have own : ∀ operator, field.allows operator = true → operator ∈ operators := by
    intro operator allowed
    simpa [Field.allows, explicit] using allowed
  simp only [forbids_iff (entity?_of_mem holder) other, filterField?_ofSchema plain holder]
  constructor
  · intro kept rival _ governs operator allowed
    by_contra outside
    simp [kept operator outside rival governs] at allowed
  · intro agrees operator outside rival governs
    cases allowed : rival.allows operator with
    | false => rfl
    | true =>
        by_cases same : rival = field
        · subst same
          exact absurd (own operator allowed) outside
        · exact absurd (agrees rival same governs operator allowed) outside

end Catalog

namespace SharedColumn

/-- Orders keep the key of their customer in a column that is a field of its own. Clients may
compare the relation by equality only; the column has no list. -/
def decls : List TypeDecl := [
  (TypeDecl.named "Customer").located "db" "Customers",
  (((TypeDecl.named "Order").located "db" "Orders").withField
    (((FieldDecl.named "customer" "Customer").byOurs "customerId").withFilterOps ["eq"])).withField
      (.named "customerId" "String")]

def customer : Field where
  fieldname := "customer"
  returnTypename := "Customer"
  returnMany := false
  placement := .full "db" "Customers"
  ours := some "customerId"
  theirs := none
  filterOps := some [.equal]
  filterAlias := none
  sortable := none
  sortAlias := none
  pagination := some false
  relation := .oneOurs

def customerId : Field where
  fieldname := "customerId"
  returnTypename := "String"
  returnMany := false
  placement := .unknown
  ours := none
  theirs := none
  filterOps := none
  filterAlias := none
  sortable := none
  sortAlias := none
  pagination := some false
  relation := .embedded

def order : Entity := ⟨"Order", .full "db" "Orders", false, [customer, customerId]⟩

def schema : Schema := ⟨[⟨"Customer", .full "db" "Customers", false, []⟩, order]⟩

theorem compiled : Schema.compile none decls = .ok schema := by
  simp only [Schema.compile, Schema.build, Schema.ofDecls, Schema.compileTypes, TypeDecl.compile,
    mergeSort_eq_insertionSort]
  rfl

/-- A search for a part of the key, which the list of the relation excludes. -/
def search : Value := .object [("customerId_contains", .string "7")]

def explanation : Explanation where
  select := ⟨"SELECT c.id FROM c WHERE CONTAINS(c.customerId, @p1) ORDER BY c.id",
    [⟨"@p1", .string "7"⟩]⟩
  count := ⟨"SELECT VALUE COUNT(1) FROM c WHERE CONTAINS(c.customerId, @p1)",
    [⟨"@p1", .string "7"⟩]⟩

theorem restriction_bypassed :
    Schema.compile none decls = .ok schema ∧ (∀ decl ∈ decls, '.' ∉ decl.typename.toList) ∧
      (order, customer) ∈ schema.fields ∧ customer.filterOps = some [.equal] ∧
      customer.filterColumn ≠ Column.id ∧
      FilterKey.parse "customerId_contains" =
        .ok ⟨customer.filterColumn, ⟨.contains, false⟩⟩ ∧
      (Catalog.ofSchema schema).explain "Order" [] search .null = .ok explanation := by
  let filters : List Filter := [.onKey "customerId" ⟨.contains, false⟩ (.string "7")]
  have read : Filter.ofInput search = .ok filters := rfl
  have selected : (Catalog.ofSchema schema).select "Order" [] filters [] =
      .ok explanation.select := by decide
  have counted : (Catalog.ofSchema schema).count "Order" filters = .ok explanation.count := by
    decide
  have explained : (Catalog.ofSchema schema).explain "Order" [] search .null =
      .ok explanation :=
    bind_eq_ok.mpr ⟨filters, read, bind_eq_ok.mpr ⟨[], rfl,
      bind_eq_ok.mpr ⟨_, selected, bind_eq_ok.mpr ⟨_, counted, rfl⟩⟩⟩⟩
  exact ⟨compiled, by decide, by decide, rfl, by decide, by decide, explained⟩

theorem restriction_kept_iff_customer :
    Schema.compile none decls = .ok schema ∧
      ¬ ∀ operator, operator ∉ [Operator.equal] →
        (Catalog.ofSchema schema).Forbids "Order" customer.filterColumn operator := by
  refine ⟨compiled, fun kept => ?_⟩
  have listedFields : (order, customer) ∈ schema.fields := by decide
  have agrees := (Catalog.restriction_kept_iff compiled (by decide) listedFields rfl
    (by decide)).mp kept
  have listed := agrees customerId (by decide) (by decide) .contains rfl
  contradiction

end SharedColumn

end DocGraph
