import DocGraph.Proofs.Query.Listing
import DocGraph.Proofs.Query.Selecting
import DocGraph.Proofs.Query.SortInput

/-!
# Orders of documents

The text of an order names columns with directions, and can be read in one way only. It always
names the identifying column, so that documents with different ids are never tied, however a
store orders what the other columns hold.
-/

namespace DocGraph

open Json
open Token (Spells Closes)

/-- How a store orders what columns hold; what is looked up in vain is none. A text is tied with
itself only. -/
structure Collation where
  compare : Option Value → Option Value → Ordering
  transitive : Std.TransCmp compare
  tells (text : String) (held : Option Value) :
    compare (some (.string text)) held = .eq → held = some (.string text)

namespace Collation

attribute [instance] Collation.transitive

variable (collation : Collation)

/-- The order of documents by one column. -/
def compareColumn (column : String) : Direction → Value → Value → Ordering
  | .ascending, left, right => collation.compare (left.get? column) (right.get? column)
  | .descending, left, right => collation.compare (right.get? column) (left.get? column)

/-- The lexicographic order: the first column in which documents are apart decides. -/
def compareBy : List (String × Direction) → Value → Value → Ordering
  | [] => fun _ _ => .eq
  | (column, direction) :: rest =>
    compareLex (collation.compareColumn column direction) (compareBy rest)

instance transCmp_compareColumn (column : String) (direction : Direction) :
    Std.TransCmp (collation.compareColumn column direction) := by
  cases direction with
  | ascending =>
      exact {
        eq_swap := collation.transitive.eq_swap
        isLE_trans := collation.transitive.isLE_trans }
  | descending =>
      exact {
        eq_swap := collation.transitive.eq_swap
        isLE_trans := fun before behind => collation.transitive.isLE_trans behind before }

instance transCmp_compareBy (order : List (String × Direction)) :
    Std.TransCmp (collation.compareBy order) := by
  induction order with
  | nil => exact { eq_swap := rfl, isLE_trans := fun _ _ => rfl }
  | cons first rest ih =>
      rw [compareBy]
      infer_instance

theorem compareColumn_of_tied {order : List (String × Direction)} {column : String}
    {direction : Direction} {left right : Value} (member : (column, direction) ∈ order)
    (tied : collation.compareBy order left right = .eq) :
    collation.compareColumn column direction left right = .eq := by
  induction order with
  | nil => contradiction
  | cons first rest ih =>
      rw [compareBy, compareLex_eq_eq] at tied
      rcases List.mem_cons.mp member with same | later
      · rw [← same] at tied
        exact tied.1
      · exact ih later tied.2

theorem compare_of_tied {column : String} {direction : Direction} {left right : Value}
    (tied : collation.compareColumn column direction left right = .eq) :
    collation.compare (left.get? column) (right.get? column) = .eq := by
  cases direction with
  | ascending => exact tied
  | descending => exact Std.OrientedCmp.eq_symm tied

theorem idOf?_eq_of_tied {left right : Value} {id : String}
    (tied : collation.compare (left.get? Column.id) (right.get? Column.id) = .eq)
    (identified : Record.idOf? left = some id) : Record.idOf? right = some id := by
  have held := Record.idOf?_eq_some.mp identified
  rw [held] at tied
  exact Record.idOf?_eq_some.mpr (collation.tells id _ tied)

/-- Where the identifying column is among the columns, only documents with one id are tied. -/
theorem compareBy_ne_eq {order : List (String × Direction)} {direction : Direction}
    {left right : Value} (identified : (Column.id, direction) ∈ order)
    (different : Record.idOf? left ≠ Record.idOf? right) :
    collation.compareBy order left right ≠ .eq := by
  intro tied
  have same := collation.compare_of_tied (collation.compareColumn_of_tied identified tied)
  cases held : Record.idOf? left with
  | some id => exact different (held.trans (collation.idOf?_eq_of_tied same held).symm)
  | none =>
      cases held' : Record.idOf? right with
      | none => exact different (held.trans held'.symm)
      | some id =>
          have back := collation.idOf?_eq_of_tied (Std.OrientedCmp.eq_symm same) held'
          rw [held] at back
          cases back

end Collation

/-- The text of one column of an order: a reference, and a word behind it if it descends. -/
inductive Directs : String → String × Direction → Prop
  | ascending {text name : String} (denotes : Column.Denotes text name) :
      Directs text (name, .ascending)
  | descending {text name : String} (denotes : Column.Denotes text name) :
      Directs (text ++ " DESC") (name, .descending)

namespace Directs

/-- The column and the direction that tokens spell. -/
def ofTokens? : List Token → Option (String × Direction)
  | [.column name] => some (name, .ascending)
  | [.column name, .word "DESC"] => some (name, .descending)
  | _ => none

theorem reads {text : String} {entry : String × Direction} (directs : Directs text entry) :
    ∃ tokens, Spells text tokens ∧ .comma ∉ tokens ∧ ofTokens? tokens = some entry := by
  cases directs with
  | ascending denotes => exact ⟨_, denotes.spells, by simp, rfl⟩
  | descending denotes =>
      have descends : Closes " DESC" [.word "DESC"] := by decide
      exact ⟨_, denotes.spells.close descends, by simp, rfl⟩

theorem orderText (column : String) (direction : Direction) :
    Directs (Catalog.orderText column direction) (column, direction) := by
  have denotes := Column.denotes_reference column
  cases direction with
  | ascending => exact .ascending denotes
  | descending => exact .descending denotes

end Directs

namespace Catalog

variable (catalog : Catalog) (typename : String)

/-- The column that a sort key resolves to: that of its field, or the identifying one where no
field has it. -/
inductive SortsBy (key : SortKey) : String → Prop
  | field {field : Field} (known : catalog.sortField? typename key.field = some field) :
      SortsBy key field.sortColumn
  | identifier (unlisted : catalog.sortField? typename Column.id = none)
      (named : key.field = Column.id) : SortsBy key Column.id

/-- The columns that sort keys resolve to, each with its direction, and at the end the identifying
one unless some key has it. -/
inductive SortsByAll (keys : List SortKey) : List (String × Direction) → Prop
  | columns {columns : List String}
      (each : List.Forall₂ (catalog.SortsBy typename) keys columns) :
      SortsByAll keys (columns.zip (keys.map (·.direction)) ++
        if Column.id ∈ columns then [] else [(Column.id, .ascending)])

variable {catalog typename}

theorem sortsBy_of_sortColumn {key : SortKey} {column : String}
    (resolved : catalog.sortColumn typename key = .ok column) :
    catalog.SortsBy typename key column := by
  unfold sortColumn at resolved
  split at resolved
  · next field known =>
      cases resolved
      exact .field known
  · next unlisted =>
      split at resolved
      · next named =>
          cases resolved
          rw [named] at unlisted
          exact .identifier unlisted named
      · cases resolved

theorem exists_columns {keys : List SortKey} {given : List (String × Direction)}
    (mapped : keys.mapM (fun key => (catalog.sortColumn typename key).map fun column =>
      (column, key.direction)) = .ok given) :
    ∃ columns, List.Forall₂ (catalog.SortsBy typename) keys columns ∧
      given = columns.zip (keys.map (·.direction)) := by
  have each := forall₂_of_mapM_ok mapped
  clear mapped
  induction each with
  | nil => exact ⟨[], .nil, rfl⟩
  | cons stepped _ ih =>
      obtain ⟨column, resolved, rfl⟩ := map_eq_ok.mp stepped
      obtain ⟨columns, rest, rfl⟩ := ih
      exact ⟨column :: columns, .cons (sortsBy_of_sortColumn resolved) rest, rfl⟩

theorem mem_columns_iff {keys : List SortKey} {columns : List String} {column : String}
    (each : List.Forall₂ (catalog.SortsBy typename) keys columns) :
    column ∈ columns ↔ ∃ direction, (column, direction) ∈ columns.zip (keys.map (·.direction)) := by
  have names : (columns.zip (keys.map (·.direction))).map (·.1) = columns := by
    apply List.map_fst_zip
    rw [List.length_map, each.length_eq]
  constructor
  · intro member
    rw [← names] at member
    obtain ⟨entry, inside, same⟩ := List.mem_map.mp member
    exact ⟨entry.2, same ▸ inside⟩
  · intro member
    obtain ⟨direction, inside⟩ := member
    rw [← names]
    exact List.mem_map_of_mem inside

theorem sortsByAll_of_sortOrder {keys : List SortKey} {order : List (String × Direction)}
    (sorted : catalog.sortOrder typename keys = .ok order) :
    catalog.SortsByAll typename keys order := by
  obtain ⟨given, mapped, sorted⟩ := bind_eq_ok.mp sorted
  obtain rfl := pure_eq_ok.mp sorted
  obtain ⟨columns, each, rfl⟩ := exists_columns mapped
  have identified : (columns.zip (keys.map (·.direction))).any (·.1 == Column.id) = true ↔
      Column.id ∈ columns := by
    rw [mem_columns_iff each]
    simp
  have resolves := SortsByAll.columns each
  by_cases member : Column.id ∈ columns
  · rw [if_pos (identified.mpr member)]
    rwa [if_pos member, List.append_nil] at resolves
  · rw [if_neg (mt identified.mp member)]
    rwa [if_neg member] at resolves

/-- The identifying column is always among them. -/
theorem SortsByAll.identified {keys : List SortKey} {order : List (String × Direction)}
    (resolves : catalog.SortsByAll typename keys order) :
    ∃ direction, (Column.id, direction) ∈ order := by
  cases resolves with
  | @columns columns each =>
      by_cases member : Column.id ∈ columns
      · obtain ⟨direction, inside⟩ := (mem_columns_iff each).mp member
        exact ⟨direction, List.mem_append_left _ inside⟩
      · rw [if_neg member]
        exact ⟨.ascending, List.mem_append_right _ (.head _)⟩

theorem lists_sortText (order : List (String × Direction)) :
    Lists Directs (", ".intercalate (order.map fun (column, direction) =>
      orderText column direction)) order := by
  refine ⟨_, ?_, rfl⟩
  rw [List.forall₂_map_left_iff, List.forall₂_same]
  intro entry _
  exact Directs.orderText entry.1 entry.2

/-- The text of an order names its columns and directions, and nothing else can be read in it. -/
theorem lists_sortText_iff {order other : List (String × Direction)} (nonempty : order ≠ []) :
    Lists Directs (", ".intercalate (order.map fun (column, direction) =>
      orderText column direction)) other ↔ other = order := by
  constructor
  · exact (lists_sortText order).unique (fun _ _ => Directs.reads) rfl nonempty
  · intro same
    rw [same]
    exact lists_sortText order

/-- What the text of an order says and does: its columns are those that the sort keys resolve to
with the identifying one, it can be read in one way only, and however a store orders what columns
hold, documents are totally ordered and those with different ids never tied. -/
structure TotallyOrders (catalog : Catalog) (typename : String) (keys : List SortKey)
    (text : String) (order : List (String × Direction)) : Prop where
  resolves : catalog.SortsByAll typename keys order
  written : text =
    ", ".intercalate (order.map fun (column, direction) => orderText column direction)
  read : ∀ other, Lists Directs text other ↔ other = order
  identified : ∃ direction, (Column.id, direction) ∈ order
  total : ∀ collation : Collation, Std.TransCmp (collation.compareBy order)
  untied : ∀ (collation : Collation) (left right : Value),
    Record.idOf? left ≠ Record.idOf? right → collation.compareBy order left right ≠ .eq

theorem totallyOrders_of_sortText {keys : List SortKey} {text : String}
    (accepted : catalog.sortText typename keys = .ok text) :
    ∃ order, catalog.TotallyOrders typename keys text order := by
  obtain ⟨order, sorted, rfl⟩ := map_eq_ok.mp accepted
  have resolves := sortsByAll_of_sortOrder sorted
  obtain ⟨direction, identified⟩ := resolves.identified
  exact ⟨order, {
    resolves
    written := rfl
    read := fun _ => lists_sortText_iff (List.ne_nil_of_mem identified)
    identified := ⟨direction, identified⟩
    total := fun collation => collation.transCmp_compareBy order
    untied := fun collation _ _ different => collation.compareBy_ne_eq identified different }⟩

end Catalog

/-- Client input for a sort becomes a total order: the keys of a sort object come by priority and
then by their written form, the first member that ranks no key is reported, and whatever keys
are accepted for a type, the text of their order never ties documents with different ids. -/
theorem client_sort_total {members : List (String × Value)} (sorted : Keyed.Sorted members) :
    ((∃ keys, SortKey.ofInput (.object members) = .ok keys) ↔
      ∀ member ∈ members, ∃ entry, RankedSortKey.Ranks member entry) ∧
    (∀ outcome, SortKey.ofInput (.object members) = outcome ↔ SortKey.Reads members outcome) ∧
    ∀ (catalog : Catalog) (typename : String) (keys : List SortKey) (text : String),
      catalog.sortText typename keys = .ok text →
      ∃ order, catalog.TotallyOrders typename keys text order :=
  ⟨SortKey.exists_ofInput_iff sorted, fun _ => SortKey.ofInput_eq_iff sorted,
    fun _ _ _ _ => Catalog.totallyOrders_of_sortText⟩

namespace Census

/-- A store that orders texts and puts everything else before them. -/
def byText : Collation where
  compare left right := compare (left.bind (·.text?)) (right.bind (·.text?))
  transitive := { eq_swap := Std.OrientedOrd.eq_swap, isLE_trans := Std.TransOrd.isLE_trans }
  tells text held tied := by
    have same := Std.LawfulEqOrd.eq_of_compare tied
    cases held with
    | none => simp [Value.text?] at same
    | some value => cases value <;> simp_all [Value.text?]

/-- Two to the power of 53, to which the next integer is rounded. -/
def rounded : Double := ⟨false, 1076 * Nat.pow 2 52, by decide⟩

def members : List (String × Value) := [
  ("age_ASC", .number (.integer 9007199254740993)),
  ("born_DESC", .number (.double rounded)),
  ("city_ASC", .number (.integer 0)),
  ("died_ASC", .number (.double Double.zero.neg))]

def keys : List SortKey :=
  [⟨"died", .ascending⟩, ⟨"city", .ascending⟩, ⟨"age", .ascending⟩, ⟨"born", .descending⟩]

def column (name : String) : Field where
  fieldname := name
  returnTypename := "String"
  returnMany := false
  placement := ⟨none, none⟩
  ours := none
  theirs := none
  filterOps := none
  filterAlias := none
  sortable := none
  sortAlias := none
  pagination := some false
  relation := .embedded

def catalog : Catalog :=
  .ofSchema ⟨[⟨"Person", ⟨some "db", some "People"⟩, false,
    ["age", "born", "city", "died"].map column⟩]⟩

/-- The entry that a member with a key and a priority ranks. -/
def entry (key : SortKey) (priority : Number) : RankedSortKey :=
  ⟨priority.toDouble, key.write, key⟩

def age : RankedSortKey := entry ⟨"age", .ascending⟩ (.integer 9007199254740993)
def born : RankedSortKey := entry ⟨"born", .descending⟩ (.double rounded)
def city : RankedSortKey := entry ⟨"city", .ascending⟩ (.integer 0)
def died : RankedSortKey := entry ⟨"died", .ascending⟩ (.double Double.zero.neg)

theorem ranks_members : List.Forall₂ RankedSortKey.Ranks members [age, born, city, died] := by
  have each (key : SortKey) (priority : Number) (nonempty : key.field ≠ "") :
      RankedSortKey.Ranks (key.write, .number priority) (entry key priority) :=
    .member nonempty
  exact .cons (each ⟨"age", .ascending⟩ _ (by decide))
    (.cons (each ⟨"born", .descending⟩ _ (by decide))
      (.cons (each ⟨"city", .ascending⟩ _ (by decide))
        (.cons (each ⟨"died", .ascending⟩ _ (by decide)) .nil)))

theorem ordered_entries : [died, city, age, born].Pairwise RankedSortKey.Before := by
  simp only [List.pairwise_cons, List.forall_mem_cons, RankedSortKey.before_iff]
  simp only [List.not_mem_nil, false_implies, implies_true, List.Pairwise.nil, and_true]
  decide +kernel

theorem reads_members : SortKey.Reads members (.ok keys) := by
  have late : [died, city].Perm [city, died] := .swap city died []
  have once : [died, city, age, born].Perm [age, born, city, died] :=
    (late.append_right [age, born]).trans List.perm_append_comm
  exact .ranked ranks_members once ordered_entries

theorem client_sort_total_census :
    Keyed.Sorted members ∧ SortKey.ofInput (.object members) = .ok keys ∧
      catalog.sortText "Person" keys = .ok "c.died, c.city, c.age, c.born DESC, c.id" ∧
      ∃ order, Lists Directs "c.died, c.city, c.age, c.born DESC, c.id" order ∧
        byText.compareBy order (.object [("id", .string "1")]) (.object [("id", .string "2")]) ≠
          .eq := by
  have sorted : Keyed.Sorted members := by unfold Keyed.Sorted; decide
  have accepted : catalog.sortText "Person" keys =
      .ok "c.died, c.city, c.age, c.born DESC, c.id" := by decide
  obtain ⟨_, reads, orders⟩ := client_sort_total sorted
  obtain ⟨order, total⟩ := orders catalog "Person" keys _ accepted
  exact ⟨sorted, (reads _).mpr reads_members, accepted, order, (total.read order).mpr rfl,
    total.untied byText _ _ (by decide)⟩

end Census

end DocGraph
