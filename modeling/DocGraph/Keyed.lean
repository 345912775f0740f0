import DocGraph.NameSet

/-!
# Key-sorted association lists

A list of key and value pairs kept in increasing key order, each key once. Keys
are compared character by character, which for texts is also the order of their
UTF-8 bytes.
-/

namespace DocGraph.Keyed

variable {α : Type}

def find? (key : String) : List (String × α) → Option α
  | [] => none
  | (name, value) :: rest => if key = name then some value else find? key rest

/-- Stores a value under a key, replacing what the key held before. -/
def insert (key : String) (value : α) : List (String × α) → List (String × α)
  | [] => [(key, value)]
  | (name, held) :: rest =>
    if key < name then (key, value) :: (name, held) :: rest
    else if key = name then (key, value) :: rest
    else (name, held) :: insert key value rest

/-- Stores the pairs in order, so that the last value of a key stays. -/
def ofList (pairs : List (String × α)) : List (String × α) :=
  pairs.foldl (fun sorted pair => insert pair.1 pair.2 sorted) []

def keys (pairs : List (String × α)) : List String := pairs.map (·.1)

def Sorted (pairs : List (String × α)) : Prop := (keys pairs).Pairwise (· < ·)

theorem find?_insert (key sought : String) (value : α) (pairs : List (String × α)) :
    find? sought (insert key value pairs) =
      if sought = key then some value else find? sought pairs := by
  induction pairs with
  | nil => rfl
  | cons pair rest ih =>
    obtain ⟨name, held⟩ := pair
    simp only [insert]
    split
    · rfl
    · split
      · next same => subst same; simp only [find?]; split <;> rfl
      · next different =>
        simp only [find?, ih]
        split
        · next found => subst found; rw [if_neg (Ne.symm different)]
        · rfl

theorem keys_insert (key : String) (value : α) (pairs : List (String × α)) :
    keys (insert key value pairs) = NameSet.place key (keys pairs) := by
  induction pairs with
  | nil => rfl
  | cons pair rest ih =>
    obtain ⟨name, held⟩ := pair
    simp only [keys] at ih
    simp only [insert, keys, List.map_cons, NameSet.place]
    split
    · rfl
    · split
      · next same => simp [same]
      · simp [ih]

theorem Sorted.insert {key : String} {value : α} {pairs : List (String × α)}
    (sorted : Sorted pairs) : Sorted (insert key value pairs) := by
  rw [Sorted, keys_insert]
  exact NameSet.sorted_place sorted

theorem mem_of_mem_insert {key : String} {value : α} {pairs : List (String × α)}
    {other : String × α} (member : other ∈ insert key value pairs) :
    other = (key, value) ∨ other ∈ pairs := by
  induction pairs with
  | nil => exact .inl (List.mem_singleton.mp member)
  | cons pair rest ih =>
    simp only [insert] at member
    split at member
    · exact List.mem_cons.mp member
    · split at member
      · exact (List.mem_cons.mp member).imp_right (List.mem_cons_of_mem _)
      · rcases List.mem_cons.mp member with first | later
        · rw [first]
          exact .inr (.head _)
        · exact (ih later).imp_right (List.mem_cons_of_mem _)

theorem ofList_induction {motive : List (String × α) → Prop} {pairs : List (String × α)}
    (nil : motive [])
    (insert : ∀ sorted, motive sorted → ∀ pair ∈ pairs, motive (insert pair.1 pair.2 sorted)) :
    motive (ofList pairs) :=
  List.foldlRecOn pairs _ nil insert

theorem Sorted.ofList (pairs : List (String × α)) : Sorted (ofList pairs) := by
  apply ofList_induction
  · exact List.Pairwise.nil
  · intro sorted held pair _
    exact held.insert

theorem subset_of_ofList (pairs : List (String × α)) : ofList pairs ⊆ pairs := by
  apply ofList_induction (motive := (· ⊆ pairs))
  · exact List.nil_subset pairs
  · intro sorted inside pair given other member
    rcases mem_of_mem_insert member with same | before
    · rwa [same]
    · exact inside before

end DocGraph.Keyed
