import DocGraph.Keyed
import DocGraph.Number.Double

/-!
# JSON values

Client input, stored rows and query parameters are JSON values. A number is an
integer or a double, and these two kinds never compare equal. Objects are lists
of members; every object that the library builds is key-sorted.
-/

namespace DocGraph.Json

inductive Number where
  | integer (value : Int)
  | double (value : Double)
deriving DecidableEq

namespace Number

def toDouble : Number → Double
  | integer value => Double.ofInt value
  | double value => value

def natural? : Number → Option Nat
  | integer value => if 0 ≤ value then some value.toNat else none
  | double _ => none

/-- The representative of all numbers equal to this one: negative zero is
replaced by zero. -/
def canonical : Number → Number
  | integer value => integer value
  | double value => double value.canonical

end Number

inductive Value where
  | null
  | boolean (value : Bool)
  | number (value : Number)
  | string (text : String)
  | array (items : List Value)
  | object (members : List (String × Value))

namespace Value

instance : Inhabited Value := ⟨null⟩

mutual

/-- Structural identity; the two zeros of a double differ. -/
def identical : Value → Value → Bool
  | null, null => true
  | boolean left, boolean right => left == right
  | number left, number right => left == right
  | string left, string right => left == right
  | array left, array right => identicalItems left right
  | object left, object right => identicalMembers left right
  | _, _ => false

def identicalItems : List Value → List Value → Bool
  | [], [] => true
  | left :: lefts, right :: rights => identical left right && identicalItems lefts rights
  | _, _ => false

def identicalMembers : List (String × Value) → List (String × Value) → Bool
  | [], [] => true
  | (leftKey, left) :: lefts, (rightKey, right) :: rights =>
    leftKey == rightKey && identical left right && identicalMembers lefts rights
  | _, _ => false

end

mutual

theorem eq_of_identical : ∀ (left right : Value), identical left right = true → left = right
  | null, right, same => by cases right <;> simp_all [identical]
  | boolean _, right, same => by cases right <;> simp_all [identical]
  | number _, right, same => by cases right <;> simp_all [identical]
  | string _, right, same => by cases right <;> simp_all [identical]
  | array left, right, same => by
    cases right with
    | array right =>
      simp only [identical] at same
      rw [eq_of_identicalItems left right same]
    | _ => simp [identical] at same
  | object left, right, same => by
    cases right with
    | object right =>
      simp only [identical] at same
      rw [eq_of_identicalMembers left right same]
    | _ => simp [identical] at same

theorem eq_of_identicalItems : ∀ (left right : List Value),
    identicalItems left right = true → left = right
  | [], right, same => by cases right <;> simp_all [identicalItems]
  | first :: rest, right, same => by
    cases right with
    | nil => simp [identicalItems] at same
    | cons head tail =>
      simp only [identicalItems, Bool.and_eq_true] at same
      rw [eq_of_identical first head same.1, eq_of_identicalItems rest tail same.2]

theorem eq_of_identicalMembers : ∀ (left right : List (String × Value)),
    identicalMembers left right = true → left = right
  | [], right, same => by cases right <;> simp_all [identicalMembers]
  | (key, first) :: rest, right, same => by
    cases right with
    | nil => simp [identicalMembers] at same
    | cons head tail =>
      obtain ⟨name, value⟩ := head
      simp only [identicalMembers, Bool.and_eq_true, beq_iff_eq] at same
      rw [same.1.1, eq_of_identical first value same.1.2,
        eq_of_identicalMembers rest tail same.2]

end

mutual

theorem identical_refl : ∀ value : Value, identical value value = true
  | null => rfl
  | boolean _ => by simp [identical]
  | number _ => by simp [identical]
  | string _ => by simp [identical]
  | array items => by simp [identical, identicalItems_refl items]
  | object members => by simp [identical, identicalMembers_refl members]

theorem identicalItems_refl : ∀ items : List Value, identicalItems items items = true
  | [] => rfl
  | first :: rest => by
    simp [identicalItems, identical_refl first, identicalItems_refl rest]

theorem identicalMembers_refl : ∀ members : List (String × Value),
    identicalMembers members members = true
  | [] => rfl
  | (_, first) :: rest => by
    simp [identicalMembers, identical_refl first, identicalMembers_refl rest]

end

theorem identical_iff {left right : Value} : identical left right = true ↔ left = right :=
  ⟨eq_of_identical left right, fun same => same ▸ identical_refl left⟩

instance : DecidableEq Value := fun _ _ => decidable_of_iff _ identical_iff

mutual

/-- The representative of all values equal to this one: every negative zero
inside it is replaced by zero. -/
def canonical : Value → Value
  | null => null
  | boolean value => boolean value
  | number value => number value.canonical
  | string text => string text
  | array items => array (canonicalItems items)
  | object members => object (canonicalMembers members)

def canonicalItems : List Value → List Value
  | [] => []
  | first :: rest => canonical first :: canonicalItems rest

def canonicalMembers : List (String × Value) → List (String × Value)
  | [] => []
  | (key, first) :: rest => (key, canonical first) :: canonicalMembers rest

end

/-- Deep equality, by kind and value of every number: an integer differs from
the double of the same size, and the two zeros of a double are equal. -/
def same (left right : Value) : Bool := left.canonical = right.canonical

@[simp] theorem same_refl (value : Value) : same value value = true := by simp [same]

theorem same_symm {left right : Value} (equal : same left right = true) :
    same right left = true := by simp_all [same]

theorem same_trans {left middle right : Value} (first : same left middle = true)
    (second : same middle right = true) : same left right = true := by simp_all [same]

/-- An object from members in any order; of a repeated key the last value stays. -/
def ofMembers (members : List (String × Value)) : Value := object (Keyed.ofList members)

mutual

/-- The same value with the members of every object in the order of their keys. -/
def keySorted : Value → Value
  | array items => array (keySortedItems items)
  | object members => ofMembers (keySortedMembers members)
  | scalar => scalar

def keySortedItems : List Value → List Value
  | [] => []
  | first :: rest => keySorted first :: keySortedItems rest

def keySortedMembers : List (String × Value) → List (String × Value)
  | [] => []
  | (key, first) :: rest => (key, keySorted first) :: keySortedMembers rest

end

def get? (value : Value) (key : String) : Option Value :=
  match value with
  | object members => Keyed.find? key members
  | _ => none

def text? : Value → Option String
  | string text => some text
  | _ => none

def boolean? : Value → Option Bool
  | boolean value => some value
  | _ => none

def items? : Value → Option (List Value)
  | array items => some items
  | _ => none

def isNull : Value → Bool
  | null => true
  | _ => false

def isArray : Value → Bool
  | array _ => true
  | _ => false

def isBoolean : Value → Bool
  | boolean _ => true
  | _ => false

def natural? : Value → Option Nat
  | number value => value.natural?
  | _ => none

theorem natural?_eq_some {value : Value} {count : Nat} :
    value.natural? = some count ↔ value = number (.integer count) := by
  match value with
  | number (.integer held) =>
    simp only [natural?, Number.natural?, Option.ite_none_right_eq_some, Option.some.injEq,
      number.injEq, Number.integer.injEq]
    omega
  | number (.double _) => simp [natural?, Number.natural?]
  | null | boolean _ | string _ | array _ | object _ => simp [natural?]

def texts (items : List String) : Value := array (items.map string)

/-- A text that may be missing, which is then null. -/
def optionalText : Option String → Value
  | some text => string text
  | none => null

def optionalBoolean : Option Bool → Value
  | some value => boolean value
  | none => null

/-- A phrase for the kind of a value, with its article. -/
def describe : Value → String
  | null => "null"
  | boolean _ => "a boolean"
  | number _ => "a number"
  | string _ => "a string"
  | array _ => "an array"
  | object _ => "an object"

def ofInt (value : Int) : Value := number (.integer value)

def optionalNatural : Option Nat → Value
  | some value => ofInt value
  | none => null

end Value

end DocGraph.Json
