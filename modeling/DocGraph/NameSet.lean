namespace DocGraph

structure NameSet where
  names : List String
  sorted : names.Pairwise (· < ·)
deriving DecidableEq

namespace NameSet

def empty : NameSet := ⟨[], .nil⟩

instance : Inhabited NameSet := ⟨empty⟩

instance : Membership String NameSet := ⟨fun set name => name ∈ set.names⟩

instance (name : String) (set : NameSet) : Decidable (name ∈ set) :=
  inferInstanceAs (Decidable (name ∈ set.names))

def size (set : NameSet) : Nat := set.names.length

/-- Puts a name into its place of an increasing list. -/
def place (name : String) : List String → List String
  | [] => [name]
  | first :: rest =>
    if name < first then name :: first :: rest
    else if name = first then first :: rest
    else first :: place name rest

theorem mem_place {name other : String} {names : List String} :
    other ∈ place name names ↔ other = name ∨ other ∈ names := by
  induction names with
  | nil => simp [place]
  | cons first rest ih =>
    simp only [place]
    split
    · simp
    · split
      · next same => subst same; simp
      · simp only [List.mem_cons, ih]
        constructor
        · rintro (rfl | rfl | member)
          · exact .inr (.inl rfl)
          · exact .inl rfl
          · exact .inr (.inr member)
        · rintro (rfl | rfl | member)
          · exact .inr (.inl rfl)
          · exact .inl rfl
          · exact .inr (.inr member)

theorem sorted_place {name : String} {names : List String} (sorted : names.Pairwise (· < ·)) :
    (place name names).Pairwise (· < ·) := by
  induction names with
  | nil => simp [place]
  | cons first rest ih =>
    have parts := List.pairwise_cons.mp sorted
    simp only [place]
    split
    · next before =>
      refine List.pairwise_cons.mpr ⟨fun other member => ?_, sorted⟩
      rcases List.mem_cons.mp member with rfl | later
      · exact before
      · exact String.lt_trans before (parts.1 other later)
    · split
      · exact sorted
      · next notBefore different =>
        have after : first < name := Classical.byContradiction fun notAfter =>
          different (String.le_antisymm (String.not_lt.mp notAfter) (String.not_lt.mp notBefore))
        refine List.pairwise_cons.mpr ⟨fun other member => ?_, ih parts.2⟩
        rcases mem_place.mp member with rfl | earlier
        · exact after
        · exact parts.1 other earlier

def insert (name : String) (set : NameSet) : NameSet :=
  ⟨place name set.names, sorted_place set.sorted⟩

/-- The set with the given names added. -/
def insertAll (set : NameSet) (names : List String) : NameSet :=
  names.foldl (fun grown name => grown.insert name) set

def ofList (names : List String) : NameSet := empty.insertAll names

def union (left right : NameSet) : NameSet := left.insertAll right.names

theorem mem_insert {name other : String} {set : NameSet} :
    other ∈ set.insert name ↔ other = name ∨ other ∈ set := mem_place

theorem mem_insertAll {names : List String} {set : NameSet} {name : String} :
    name ∈ set.insertAll names ↔ name ∈ set ∨ name ∈ names := by
  induction names generalizing set with
  | nil => simp [insertAll]
  | cons first rest ih =>
    have step : set.insertAll (first :: rest) = (set.insert first).insertAll rest := rfl
    rw [step, ih, mem_insert, List.mem_cons]
    constructor
    · rintro ((rfl | held) | later)
      · exact .inr (.inl rfl)
      · exact .inl held
      · exact .inr (.inr later)
    · rintro (held | rfl | later)
      · exact .inl (.inr held)
      · exact .inl (.inl rfl)
      · exact .inr later

theorem mem_ofList {names : List String} {name : String} :
    name ∈ ofList names ↔ name ∈ names := by
  rw [ofList, mem_insertAll]
  exact ⟨fun member => member.resolve_left List.not_mem_nil, .inr⟩

theorem mem_union {left right : NameSet} {name : String} :
    name ∈ left.union right ↔ name ∈ left ∨ name ∈ right := mem_insertAll

theorem nodup_names (set : NameSet) : set.names.Nodup :=
  set.sorted.imp String.ne_of_lt

theorem size_pos_of_mem {set : NameSet} {name : String} (member : name ∈ set) : 0 < set.size :=
  List.length_pos_of_mem member

theorem length_place_le (name : String) (names : List String) :
    (place name names).length ≤ names.length + 1 := by
  induction names with
  | nil => simp [place]
  | cons first rest ih =>
    simp only [place]
    split
    · simp
    · split
      · simp
      · simp only [List.length_cons]
        omega

theorem size_insertAll_le (set : NameSet) (names : List String) :
    (set.insertAll names).size ≤ set.size + names.length := by
  induction names generalizing set with
  | nil => exact Nat.le_refl _
  | cons first rest ih =>
    have grown := ih (set.insert first)
    have placed : (set.insert first).size ≤ set.size + 1 := length_place_le first set.names
    have step : set.insertAll (first :: rest) = (set.insert first).insertAll rest := rfl
    rw [step, List.length_cons]
    omega

theorem size_union_le (left right : NameSet) :
    (left.union right).size ≤ left.size + right.size := size_insertAll_le left right.names

end NameSet

end DocGraph
