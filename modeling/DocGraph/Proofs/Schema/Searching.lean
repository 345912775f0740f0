import DocGraph.Proofs.Schema.ByteOrder
import DocGraph.Schema.Search

namespace DocGraph

section

variable {α : Type} {order : α → Ordering}

/-- From an item that is not too small on, everything is too large. -/
def Ordered (order : α → Ordering) (items : List α) : Prop :=
  items.Pairwise fun left right => order left ≠ .lt → order right = .gt

/-- The item in the middle tells on which side of it to look. -/
theorem find?_split {lower upper : List α} {middle : α}
    (ordered : Ordered order (lower ++ middle :: upper)) :
    (lower ++ middle :: upper).find? (order · == .eq) =
      match order middle with
      | .eq => some middle
      | .gt => lower.find? (order · == .eq)
      | .lt => upper.find? (order · == .eq) := by
  obtain ⟨_, later, across⟩ := List.pairwise_append.mp ordered
  have beyond := (List.pairwise_cons.mp later).1
  have noneLower : order middle ≠ .gt → lower.find? (order · == .eq) = none := by
    intro small
    rw [List.find?_eq_none]
    intro item member equal
    have enough : order item ≠ .lt := by simp [beq_iff_eq.mp equal]
    exact small (across item member middle (.head _) enough)
  have noneUpper : order middle ≠ .lt → upper.find? (order · == .eq) = none := by
    intro large
    rw [List.find?_eq_none]
    intro item member equal
    simp [beyond item member large] at equal
  rw [List.find?_append]
  cases place : order middle with
  | eq => simp [noneLower, place]
  | gt => simp [noneUpper, place]
  | lt => simp [noneLower, place]

theorem search?_nil : search? order [] = none := by
  rw [search?]
  rfl

theorem search?_split {items : List α} (nonempty : 0 < items.length) :
    ∃ lower middle upper, items = lower ++ middle :: upper ∧
      search? order items =
        match order middle with
        | .eq => some middle
        | .gt => search? order lower
        | .lt => search? order upper := by
  refine ⟨items.take (items.length / 2), items[items.length / 2],
    items.drop (items.length / 2 + 1), ?_, ?_⟩
  · rw [← List.drop_eq_getElem_cons, List.take_append_drop]
  · rw [search?]
    exact dif_pos nonempty

theorem search?_eq_find? {items : List α} (ordered : Ordered order items) :
    search? order items = items.find? (order · == .eq) := by
  rcases Nat.eq_zero_or_pos items.length with empty | nonempty
  · rw [List.length_eq_zero_iff.mp empty, search?_nil, List.find?_nil]
  · obtain ⟨lower, middle, upper, split, step⟩ := @search?_split α order items nonempty
    have parts : Ordered order (lower ++ middle :: upper) := split ▸ ordered
    obtain ⟨front, later, _⟩ := List.pairwise_append.mp parts
    rw [step, split, find?_split parts]
    cases order middle with
    | eq => rfl
    | gt => exact search?_eq_find? front
    | lt => exact search?_eq_find? (List.pairwise_cons.mp later).2
termination_by items.length
decreasing_by all_goals simp only [split, List.length_append, List.length_cons]; omega

end

/-- The names of a list increase, byte by byte. -/
def Increases {α : Type} (name : α → String) (items : List α) : Prop :=
  items.Pairwise fun left right => Text.bytes (name left) < Text.bytes (name right)

section

variable {α : Type} {name : α → String} {items : List α}

theorem ordered_of_increases (increases : Increases name items) (sought : String) :
    Ordered (fun item => Text.compareBytes (name item) sought) items := by
  refine increases.imp fun {left right} less => ?_
  simp only [Text.compareBytes_eq, compareOfLessAndEq]
  have ordered := Text.bytes_lt_iff.mp less
  intro beyond
  split at beyond
  · contradiction
  · next notLess =>
      have greater : sought < name right := lt_of_le_of_lt (String.not_lt.mp notLess) ordered
      rw [if_neg (String.lt_asymm greater), if_neg greater.ne']

theorem compareBytes_beq_eq (text sought : String) :
    (Text.compareBytes text sought == .eq) = (text == sought) := by
  rw [Text.compareBytes_eq, compareOfLessAndEq]
  split
  · next less => simp [less.ne]
  · split
    · next same => simp [same]
    · next other => simp [other]

/-- A search by bytes is a search for the name. -/
theorem search?_of_increases (increases : Increases name items) (sought : String) :
    search? (fun item => Text.compareBytes (name item) sought) items =
      items.find? (name · == sought) := by
  rw [search?_eq_find? (ordered_of_increases increases sought)]
  simp only [compareBytes_beq_eq]

theorem find?_of_increases (increases : Increases name items) {item : α} (member : item ∈ items) :
    items.find? (name · == name item) = some item := by
  induction increases with
  | nil => contradiction
  | @cons first rest beyond _ ih =>
      rcases List.mem_cons.mp member with rfl | later
      · simp
      · have apart : name first ≠ name item := (Text.bytes_lt_iff.mp (beyond item later)).ne
        simp [apart, ih later]

end

namespace Schema

variable {schema : Schema}

theorem searchEntity?_eq (increases : Increases (·.typename) schema.entities) (typename : String) :
    schema.searchEntity? typename = schema.entity? typename :=
  search?_of_increases increases typename

end Schema

theorem Entity.searchField?_eq {entity : Entity} (increases : Increases (·.fieldname) entity.fields)
    (fieldname : String) : entity.searchField? fieldname = entity.field? fieldname :=
  search?_of_increases increases fieldname

end DocGraph
