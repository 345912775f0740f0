import DocGraph.Proofs.Query.Columns
import Mathlib.Data.List.Forall2
import Mathlib.Data.List.Induction

namespace DocGraph

open Token (Spells)

/-- A text that lists items with commas between them. -/
def Lists {α : Type} (item : String → α → Prop) (text : String) (values : List α) : Prop :=
  ∃ texts, List.Forall₂ item texts values ∧ text = ", ".intercalate texts

theorem Token.Spells.intercalate {texts : List String} {parts : List (List Token)}
    (each : List.Forall₂ Spells texts parts) (nonempty : parts ≠ []) :
    Spells (", ".intercalate texts) ([Token.comma].intercalate parts) := by
  have comma : Token.Closes ", " [.comma] ∧ Token.Leads ", " [.comma] := by decide
  induction each with
  | nil => contradiction
  | @cons text part texts parts first rest ih =>
      cases rest with
      | nil => simpa using first
      | @cons second other others lists next more =>
          have joined := first.between comma.1 comma.2 (ih (List.cons_ne_nil _ _))
          rw [String.intercalate_cons_cons]
          simpa using joined

section Reader

variable {α : Type} {item : String → α → Prop} {read : List Token → Option α} {text : String}
  {values others : List α}

/-- The tokens of listed items, each without a comma and read as its item. -/
theorem Lists.exists_tokens
    (reads : ∀ text value, item text value →
      ∃ tokens, Spells text tokens ∧ .comma ∉ tokens ∧ read tokens = some value)
    (lists : Lists item text values) :
    ∃ parts : List (List Token), parts.map read = values.map some ∧
      (∀ part ∈ parts, .comma ∉ part) ∧
      Token.ofChars text.toList = [Token.comma].intercalate parts := by
  obtain ⟨texts, each, rfl⟩ := lists
  have exists_parts : ∃ parts, List.Forall₂ Spells texts parts ∧
      parts.map read = values.map some ∧ ∀ part ∈ parts, .comma ∉ part := by
    induction each with
    | nil => exact ⟨[], .nil, rfl, nofun⟩
    | cons first _ ih =>
        obtain ⟨tokens, spells, plain, known⟩ := reads _ _ first
        obtain ⟨parts, rest, others, plains⟩ := ih
        exact ⟨tokens :: parts, .cons spells rest, congrArg₂ List.cons known others,
          List.forall_mem_cons.mpr ⟨plain, plains⟩⟩
  obtain ⟨parts, spells, known, plain⟩ := exists_parts
  refine ⟨parts, known, plain, ?_⟩
  cases parts with
  | nil =>
      cases spells
      rfl
  | cons part parts =>
      exact (Token.Spells.intercalate spells (List.cons_ne_nil _ _)).ofChars_eq

/-- A text lists its items only, if each is known by its tokens. -/
theorem Lists.unique
    (reads : ∀ text value, item text value →
      ∃ tokens, Spells text tokens ∧ .comma ∉ tokens ∧ read tokens = some value)
    (blank : read [] = none) (nonempty : values ≠ []) (lists : Lists item text values)
    (also : Lists item text others) : others = values := by
  obtain ⟨parts, known, plain, tokens⟩ := lists.exists_tokens reads
  obtain ⟨parts', known', plain', tokens'⟩ := also.exists_tokens reads
  have filled : parts ≠ [] := by
    intro empty
    rw [empty] at known
    exact nonempty (List.map_eq_nil_iff.mp known.symm)
  have cut := List.splitOn_intercalate Token.comma plain filled
  have same : parts' = parts := by
    by_cases empty : parts' = []
    · -- Nothing is listed in an empty text, and no item is read from it.
      rw [← tokens, tokens', empty] at cut
      have unread : parts.map read = [none] := by
        rw [← cut]
        exact congrArg (fun value => [value]) blank
      rw [known] at unread
      cases values with
      | nil => contradiction
      | cons value values => simp at unread
    · rw [← List.splitOn_intercalate Token.comma plain' empty, ← tokens', tokens, cut]
  have all : others.map some = values.map some := by rw [← known, ← known', same]
  exact (List.map_inj_right fun _ _ => Option.some.inj).mp all

end Reader

namespace Column

/-- The columns other than the identifying one, each once and in the order in which they
occur first. -/
structure Others (columns others : List String) : Prop where
  listed : ∀ column, column ∈ others ↔ column ∈ columns ∧ column ≠ id
  ordered : others.Pairwise fun left right => columns.idxOf left < columns.idxOf right

theorem projected_concat (columns : List String) (last : String) :
    projected (columns ++ [last]) =
      if last ∈ projected columns then projected columns else projected columns ++ [last] := by
  simp [projected]

namespace Others

variable {columns others : List String} {last : String}

theorem idxOf_concat (known : Others columns others) {column : String} (member : column ∈ others) :
    (columns ++ [last]).idxOf column = columns.idxOf column :=
  List.idxOf_append_of_mem ((known.listed column).mp member).1

theorem ordered_concat (known : Others columns others) :
    others.Pairwise fun left right =>
      (columns ++ [last]).idxOf left < (columns ++ [last]).idxOf right := by
  refine known.ordered.imp_of_mem fun first second less => ?_
  rwa [known.idxOf_concat first, known.idxOf_concat second]

/-- A column that is known adds nothing. -/
theorem repeated (known : Others columns others) (old : last ∈ id :: others) :
    Others (columns ++ [last]) others := by
  refine ⟨fun column => ?_, known.ordered_concat⟩
  rw [known.listed]
  constructor
  · intro member
    exact ⟨List.mem_append_left _ member.1, member.2⟩
  · intro member
    obtain ⟨inside, other⟩ := member
    rcases List.mem_append.mp inside with earlier | here
    · exact ⟨earlier, other⟩
    · obtain rfl := List.mem_singleton.mp here
      rcases List.mem_cons.mp old with same | later
      · exact absurd same other
      · exact (known.listed _).mp later

theorem concat (known : Others columns others) (new : last ∉ id :: others) :
    Others (columns ++ [last]) (others ++ [last]) := by
  obtain ⟨different, unlisted⟩ := not_or.mp (mt List.mem_cons.mpr new)
  have absent : last ∉ columns := fun member =>
    unlisted ((known.listed last).mpr ⟨member, different⟩)
  refine ⟨fun column => ?_, List.pairwise_append.mpr
    ⟨known.ordered_concat, List.pairwise_singleton _ _, fun left first right second => ?_⟩⟩
  · rw [List.mem_append, List.mem_append, List.mem_singleton, known.listed]
    constructor
    · intro member
      rcases member with earlier | same
      · exact ⟨.inl earlier.1, earlier.2⟩
      · exact ⟨.inr same, same ▸ different⟩
    · intro member
      obtain ⟨earlier | same, other⟩ := member
      · exact .inl ⟨earlier, other⟩
      · exact .inr same
  · obtain rfl := List.mem_singleton.mp second
    have inside := List.idxOf_lt_length_of_mem ((known.listed left).mp first).1
    rw [known.idxOf_concat first, List.idxOf_append_of_notMem absent]
    omega

end Others

theorem exists_projected_eq (columns : List String) :
    ∃ others, Others columns others ∧ projected columns = id :: others := by
  induction columns using List.reverseRecOn with
  | nil => exact ⟨[], ⟨by simp, .nil⟩, rfl⟩
  | append_singleton columns last ih =>
      obtain ⟨others, known, projects⟩ := ih
      rw [projected_concat, projects]
      by_cases old : last ∈ id :: others
      · exact ⟨others, known.repeated old, if_pos old⟩
      · exact ⟨others ++ [last], known.concat old, if_neg old⟩

theorem lists_projection (columns : List String) :
    Lists Denotes (projection columns) (projected columns) := by
  refine ⟨(projected columns).map reference, ?_, rfl⟩
  rw [List.forall₂_map_left_iff, List.forall₂_same]
  intro column _
  exact denotes_reference column

/-- The column that a single token refers to. -/
def ofTokens? : List Token → Option String
  | [.column name] => some name
  | _ => none

theorem Denotes.reads {text name : String} (denotes : Denotes text name) :
    ∃ tokens, Spells text tokens ∧ .comma ∉ tokens ∧ ofTokens? tokens = some name :=
  ⟨_, denotes.spells, by simp, rfl⟩

/-- References are told apart by their columns, and lists of references too: a projection can
only be read as the identifying column and then the others, each once and in the order in which
they were asked for first. -/
theorem references_unambiguous :
    (∀ name, Denotes (reference name) name) ∧
    (∀ left right, reference left = reference right ↔ left = right) ∧
    ∀ columns, ∃ others, Others columns others ∧
      ∀ names, Lists Denotes (projection columns) names ↔ names = id :: others := by
  refine ⟨denotes_reference, fun left right => ⟨fun same => ?_, congrArg reference⟩,
    fun columns => ?_⟩
  · have denotes := denotes_reference left
    rw [same] at denotes
    exact (denotes_reference right).unique denotes
  · obtain ⟨others, known, projects⟩ := exists_projected_eq columns
    have lists := lists_projection columns
    rw [projects] at lists
    refine ⟨others, known, fun names => ⟨fun also => ?_, fun same => same ▸ lists⟩⟩
    exact lists.unique (fun _ _ => Denotes.reads) rfl (List.cons_ne_nil _ _) also

end Column

end DocGraph
