import DocGraph.Markup

namespace DocGraph

open Json

structure Arguments where
  filter : Value := .null
  sort : Value := .null
  cursor : Option String := none
  limit : Option Nat := none
deriving DecidableEq

namespace Arguments

def withFilter (filter : Value) (arguments : Arguments) : Arguments := { arguments with filter }

def withSort (sort : Value) (arguments : Arguments) : Arguments := { arguments with sort }

def withCursor (cursor : String) (arguments : Arguments) : Arguments :=
  { arguments with cursor := some cursor }

def withLimit (limit : Nat) (arguments : Arguments) : Arguments :=
  { arguments with limit := some limit }

def ofMarkup? (form : Markup.RecordForm) (markup : Markup) : Option Arguments := do
  match ← markup.fields? form ["where", "sort", "cursor", "limit"] with
  | [filter, sort, cursor, limit] =>
    return {
      filter := ← Markup.withDefault .null filter (·.value?)
      sort := ← Markup.withDefault .null sort (·.value?)
      cursor := ← Markup.optionalField cursor (·.text?)
      limit := ← Markup.optionalField limit (·.natural?) }
  | _ => none

end Arguments

end DocGraph
