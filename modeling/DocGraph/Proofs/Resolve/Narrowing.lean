import DocGraph.Proofs.Resolve.Built

/-!
# Relations are not left

A relation is queried with the condition of its key and the filters of the client. What
the statement asks for are the documents of the relation that the client's filter lets
through: a client narrows a relation and never widens it.
-/

namespace DocGraph

open Json

/-- The ids that the value of a key column holds. -/
inductive HoldsKey : Value → String → Prop
  | text (id : String) : HoldsKey (.string id) id
  | listed {items : List Value} {id : String} (member : .string id ∈ items) :
      HoldsKey (.array items) id

/-- A column keeps the id of a parent, alone or in a list. -/
inductive KeepsKey (id : String) : Bool → Option Value → Prop
  | alone : KeepsKey id false (some (.string id))
  | listed {items : List Value} (member : .string id ∈ items) :
      KeepsKey id true (some (.array items))

namespace KeepsKey

variable {id : String} {held : Option Value}

theorem alone_iff : KeepsKey id false held ↔ held = some (.string id) := by
  constructor
  · intro keeps
    cases keeps
    rfl
  · intro same
    rw [same]
    exact .alone

theorem listed_iff : KeepsKey id true held ↔
    ∃ items, held = some (.array items) ∧ .string id ∈ items := by
  constructor
  · intro keeps
    cases keeps with
    | listed member => exact ⟨_, rfl, member⟩
  · intro listed
    obtain ⟨items, rfl, member⟩ := listed
    exact .listed member

end KeepsKey

theorem mapM_eq_ok_texts {ε : Type} {read : Value → Except ε String}
    (texts : ∀ value id, read value = .ok id → value = .string id) {items : List Value}
    {ids : List String} (all : items.mapM read = .ok ids) : items = ids.map .string := by
  induction items generalizing ids with
  | nil =>
      rw [List.mapM_nil] at all
      rw [← pure_eq_ok.mp all, List.map_nil]
  | cons first rest ih =>
      rw [List.mapM_cons] at all
      obtain ⟨id, here, all⟩ := bind_eq_ok.mp all
      obtain ⟨others, later, all⟩ := bind_eq_ok.mp all
      rw [← pure_eq_ok.mp all, List.map_cons, ← ih later, ← texts first id here]

/-- The ids of a key are those that its column holds. -/
theorem mem_of_keysOf {column : String} {value : Value} {ids : List String}
    (read : keysOf column value = .ok ids) (id : String) : id ∈ ids ↔ HoldsKey value id := by
  cases value with
  | null =>
      obtain rfl : [] = ids := by simpa [keysOf] using read
      exact ⟨fun member => by simp at member, fun holds => by cases holds⟩
  | string text =>
      obtain rfl : [text] = ids := by simpa [keysOf] using read
      rw [List.mem_singleton]
      constructor
      · intro same
        rw [same]
        exact .text text
      · intro holds
        cases holds
        rfl
  | array items =>
      rw [keysOf] at read
      have kept : items.filter (!·.isNull) = ids.map .string := by
        refine mapM_eq_ok_texts (fun value id ok => ?_) read
        cases value <;> simp_all
      have found : .string id ∈ items ↔ .string id ∈ items.filter (!·.isNull) := by
        simp [Value.isNull]
      have member : id ∈ ids ↔ Value.string id ∈ items := by
        rw [found, kept]
        simp
      rw [member]
      constructor
      · exact .listed
      · intro holds
        cases holds with
        | listed member => exact member
  | boolean _ | number _ | object _ => simp [keysOf] at read

namespace FieldResolver

variable {resolver : FieldResolver}

theorem idCondition_holds {catalog : Catalog} {typename : String} (ids : List String)
    (comparer : Comparer) (document : Value) :
    (resolver.idCondition ids).holds (comparer.satisfies catalog typename document) = true ↔
      ∃ id ∈ ids, document.get? Column.id = some (.string id) := by
  have several : (Filter.onColumn Column.id .oneOf (.texts ids)).holds
      (comparer.satisfies catalog typename document) = true ↔
        ∃ id ∈ ids, document.get? Column.id = some (.string id) :=
    Comparer.compares_oneOf_texts
  unfold idCondition
  split
  · next id =>
      split
      · exact several
      · have single : (Filter.onColumn Column.id .equal (.string id)).holds
            (comparer.satisfies catalog typename document) = true ↔
              document.get? Column.id = some (.string id) := Comparer.compares_equal_text
        simpa using single
  · exact several

theorem reverseCondition_holds {catalog : Catalog} {typename : String} (column id : String)
    (comparer : Comparer) (document : Value) :
    (resolver.reverseCondition catalog column id).holds
        (comparer.satisfies catalog typename document) = true ↔
      KeepsKey id (resolver.keepsKeyList catalog column) (document.get? column) := by
  rw [reverseCondition]
  cases resolver.keepsKeyList catalog column with
  | true =>
      have listed : (Filter.onColumn column .oneOf (.string id)).holds
          (comparer.satisfies catalog typename document) = true ↔
            ∃ items, document.get? column = some (.array items) ∧ .string id ∈ items :=
        Comparer.compares_oneOf_text
      rw [if_pos rfl, listed, KeepsKey.listed_iff]
  | false =>
      have alone : (Filter.onColumn column .equal (.string id)).holds
          (comparer.satisfies catalog typename document) = true ↔
            document.get? column = some (.string id) := Comparer.compares_equal_text
      rw [if_neg Bool.false_ne_true, alone, KeepsKey.alone_iff]

end FieldResolver

namespace Scope

/-- A document is related to a parent: its id is one of those that the parent keeps, or it
keeps the id of the parent. -/
inductive Related (scope : Scope) (replies : Replies) (resolver : FieldResolver) (source : Record)
    (document : Value) : Prop
  | ours {column id : String} {held : Value} (strategy : resolver.strategy = .ours)
      (kept : resolver.field.ours = some column)
      (read : scope.heldValue? replies source column = some held) (key : HoldsKey held id)
      (here : document.get? Column.id = some (.string id)) :
      Related scope replies resolver source document
  | theirs {column id : String} (strategy : resolver.strategy = .theirs)
      (kept : resolver.field.theirs = some column) (parent : source.id? = some id)
      (here : KeepsKey id (resolver.keepsKeyList scope.graph.catalog column)
        (document.get? column)) : Related scope replies resolver source document

/-- Filters behind a key condition ask for what both ask for. -/
theorem narrows {catalog : Catalog} {typename : String} {input : Value} {key : Filter}
    {filters : List Filter} {statement : Statement} (accepted : Filter.ofInput input = .ok filters)
    (builds : catalog.Builds typename (key :: filters) statement) {related : Value → Prop}
    (meaning : ∀ (comparer : Comparer) (document : Value),
      key.holds (comparer.satisfies catalog typename document) = true ↔ related document) :
    ∃ condition, statement.Restricts condition ∧
      ∀ (comparer : Comparer) (document : Value) (value : Bool),
        Reading (comparer.truth document statement) .disjunction
            (Token.ofChars condition.toList) value ↔
          (value = true ↔ related document ∧ ClientFilter.holds
            (comparer.satisfiesLeaf catalog typename document) input = true) := by
  obtain ⟨condition, restricts, reading⟩ := builds.matches_iff
  refine ⟨condition, restricts, fun comparer document value => ?_⟩
  have client : Filter.allHold (comparer.satisfies catalog typename document) filters =
      ClientFilter.holds (comparer.satisfiesLeaf catalog typename document) input :=
    Filter.allHold_ofInput accepted fun _ _ => Comparer.satisfiesLeaf_of_gives
  rw [reading, Bool.eq_iff_iff, Filter.allHold, Bool.and_eq_true, meaning, client]

/-- A client only narrows a relation: the condition of every statement that is built for a
relation holds of the documents of the relation that the client's filter lets through,
and of no others. -/
theorem relation_narrowed {scope : Scope} {replies : Replies} {source : Record}
    {arguments : Arguments} {info : FieldInfo} {resolver : FieldResolver} {statement : Statement}
    (known : scope.graph.resolver? info.parentType info.fieldname = some resolver)
    (relation : resolver.strategy = .ours ∨ resolver.strategy = .theirs)
    (built : statement ∈ (scope.resolve source arguments info).statements replies) :
    ∃ condition, statement.Restricts condition ∧
      ∀ (comparer : Comparer) (document : Value) (value : Bool),
        Reading (comparer.truth document statement) .disjunction
            (Token.ofChars condition.toList) value ↔
          (value = true ↔ scope.Related replies resolver source document ∧
            ClientFilter.holds (comparer.satisfiesLeaf scope.graph.catalog
              resolver.field.returnTypename document) arguments.filter = true) := by
  rw [statements_resolve known] at built
  rcases relation with strategy | strategy
  · obtain ⟨column, held, ids, filters, kept, read, listed, accepted, builds⟩ :=
      ours_of_mem_statements strategy built
    refine narrows accepted builds fun comparer document => ?_
    rw [FieldResolver.idCondition_holds]
    constructor
    · intro some
      obtain ⟨id, member, here⟩ := some
      exact .ours strategy kept read ((mem_of_keysOf listed id).mp member) here
    · intro related
      cases related with
      | @ours other id value _ kept' read' key here =>
          obtain rfl : column = other := Option.some.inj (kept.symm.trans kept')
          obtain rfl : held = value := Option.some.inj (read.symm.trans read')
          exact ⟨id, (mem_of_keysOf listed id).mpr key, here⟩
      | theirs other _ _ _ => simp [strategy] at other
  · obtain ⟨column, id, filters, kept, parent, accepted, builds⟩ :=
      theirs_of_mem_statements strategy built
    refine narrows accepted builds fun comparer document => ?_
    rw [FieldResolver.reverseCondition_holds]
    constructor
    · exact .theirs strategy kept parent
    · intro related
      cases related with
      | ours other _ _ _ _ => simp [strategy] at other
      | @theirs column' id' _ kept' parent' here =>
          obtain rfl : column = column' := Option.some.inj (kept.symm.trans kept')
          obtain rfl : id = id' := Option.some.inj (parent.symm.trans parent')
          exact here

namespace SharedKey

def stored (fieldname returnTypename : String) (relation : Relation) : Field where
  fieldname
  returnTypename
  returnMany := relation.isMany
  placement := if relation = .embedded then .unknown else .full "db" returnTypename
  ours := none
  theirs := none
  filterOps := none
  filterAlias := none
  sortable := none
  sortAlias := none
  pagination := some (relation = .manyTheirs)
  relation

def posts : Field := { stored "posts" "Post" .manyTheirs with theirs := some "authors" }

/-- A post keeps a list of its authors. -/
def schema : Schema := ⟨[
  ⟨"Person", .full "db" "Person", false, [posts]⟩,
  ⟨"Post", .full "db" "Post", false, [
    { stored "authors" "Person" .manyOurs with ours := some "authors" },
    stored "title" "String" .embedded]⟩]⟩

def scope : Scope := ⟨.ofCatalog (.ofSchema schema) {}, ⟨"req", .null⟩⟩

def parent : Record := .ofValue (.object [("id", .string "p1")])

/-- A client compares with the id of the parent, beside an alternative that asks for nothing. -/
def arguments : Arguments where
  filter := .object [("or", .array [.object [("title_eq", .string "p1")], .object []])]

def info : FieldInfo := ⟨"Person", "posts", .empty⟩

def replies : Replies := ⟨fun _ => .ok ⟨[], none⟩, fun _ => .ok [], fun _ _ => .ok []⟩

def count : Statement where
  text := "SELECT VALUE COUNT(1) FROM c WHERE " ++
    "ARRAY_CONTAINS(c.authors, @p1) AND (c.title = @p1 OR true)"
  parameters := [⟨"@p1", .string "p1"⟩]

theorem relation_narrowed_posts :
    scope.graph.resolver? info.parentType info.fieldname = some ⟨"Person", posts, .theirs⟩ ∧
    count ∈ (scope.resolve parent arguments info).statements replies ∧
    ∃ condition, count.Restricts condition ∧
      ∀ (document : Value) (value : Bool),
        Reading (Comparer.deep.truth document count) .disjunction
            (Token.ofChars condition.toList) value ↔
          (value = true ↔ scope.Related replies ⟨"Person", posts, .theirs⟩ parent document ∧
            ClientFilter.holds (Comparer.deep.satisfiesLeaf scope.graph.catalog "Post" document)
              arguments.filter = true) := by
  have known : scope.graph.resolver? info.parentType info.fieldname =
      some ⟨"Person", posts, .theirs⟩ := by decide
  have built : count ∈ (scope.resolve parent arguments info).statements replies :=
    .tail _ (.head _)
  obtain ⟨condition, restricts, reading⟩ := relation_narrowed known (.inr rfl) built
  exact ⟨known, built, condition, restricts, reading .deep⟩

end SharedKey

end Scope

end DocGraph
