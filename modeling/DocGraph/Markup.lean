import DocGraph.Json.Value

/-!
# Markup

What a JSON or TOML text says before it is read as anything in particular. Keys
stand in the order of the text and may repeat; a scalar may be well formed and
yet stand for nothing, such as a number beyond the doubles or a text with half
of a surrogate pair. Whoever reads a part of the tree decides whether that
matters: parts that nobody reads may hold anything.
-/

namespace DocGraph

open Json

inductive Markup where
  | null
  | boolean (value : Bool)
  | number (value : Option Number)
  | string (text : Option String)
  | array (items : List Markup)
  | table (members : List (Option String × Markup))

namespace Markup

mutual

/-- The markup that says a value. -/
def ofValue : Value → Markup
  | .null => null
  | .boolean value => boolean value
  | .number value => number (some value)
  | .string text => string (some text)
  | .array items => array (ofItems items)
  | .object members => table (ofMembers members)

def ofItems : List Value → List Markup
  | [] => []
  | first :: rest => ofValue first :: ofItems rest

def ofMembers : List (String × Value) → List (Option String × Markup)
  | [] => []
  | (key, first) :: rest => (some key, ofValue first) :: ofMembers rest

end

mutual

/-- The value that the markup says, if every part stands for something. -/
def value? : Markup → Option Value
  | null => some .null
  | boolean value => some (.boolean value)
  | number value => value.map .number
  | string text => text.map .string
  | array items => (items? items).map .array
  | table members => (members? members).map .ofMembers

def items? : List Markup → Option (List Value)
  | [] => some []
  | first :: rest => do
    let value ← value? first
    return value :: (← items? rest)

def members? : List (Option String × Markup) → Option (List (String × Value))
  | [] => some []
  | (key, first) :: rest => do
    let key ← key
    let value ← value? first
    return (key, value) :: (← members? rest)

end

mutual

def depth : Markup → Nat
  | array items => depthOfItems items + 1
  | table members => depthOfMembers members + 1
  | _ => 0

def depthOfItems : List Markup → Nat
  | [] => 0
  | first :: rest => max (depth first) (depthOfItems rest)

def depthOfMembers : List (Option String × Markup) → Nat
  | [] => 0
  | (_, first) :: rest => max (depth first) (depthOfMembers rest)

end

def boolean? : Markup → Option Bool
  | boolean value => some value
  | _ => none

def text? : Markup → Option String
  | string text => text
  | _ => none

def natural? : Markup → Option Nat
  | number value => value.bind (·.natural?)
  | _ => none

def list? (item? : Markup → Option α) : Markup → Option (List α)
  | array items => items.mapM item?
  | _ => none

/-- Reads markup that may also be null. -/
def optional? (read? : Markup → Option α) : Markup → Option (Option α)
  | null => some none
  | given => (read? given).map some

/-- How the fields of a record may be given. -/
structure RecordForm where
  /-- Whether a record given as a list may have more items than fields. -/
  surplus : Bool

/-- The parts of a record with the given field names, in the order of the names.
A record is a table, whose unknown keys are ignored and whose known keys may not
repeat, or a list of the leading fields in order. -/
def fields? (form : RecordForm) (names : List String) : Markup → Option (List (Option Markup))
  | table members =>
    if members.any (·.1.isNone) then none
    else names.mapM fun name =>
      match members.filter (·.1 == some name) with
      | [] => some none
      | [(_, part)] => some (some part)
      | _ => none
  | array items =>
    if names.length < items.length && !form.surplus then none
    else some ((items.take names.length).map some
      ++ List.replicate (names.length - items.length) none)
  | _ => none

def required (part : Option Markup) (read? : Markup → Option α) : Option α :=
  part.bind read?

/-- A field that takes a default when it is missing. -/
def withDefault (default : α) (part : Option Markup) (read? : Markup → Option α) : Option α :=
  match part with
  | some part => read? part
  | none => some default

/-- A field that may be missing or null. -/
def optionalField (part : Option Markup) (read? : Markup → Option α) : Option (Option α) :=
  withDefault none part (optional? read?)

end Markup

end DocGraph
