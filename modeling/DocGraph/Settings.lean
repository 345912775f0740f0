import DocGraph.Json.Value
import DocGraph.Markup
import DocGraph.Toml.Reader
import DocGraph.Toml.Text

namespace DocGraph

open Json

structure LoaderSettings where
  /-- A batch that holds so many ids takes no further request. -/
  batchSize : Nat := 100
  /-- Milliseconds from the first pending request to the flush. -/
  batchWindow : Nat := 10
deriving DecidableEq

structure PagingSettings where
  /-- The size of a page when the caller asks for none. -/
  defaultLimit : Nat := 50
  /-- Larger pages are cut down to this size. -/
  maxLimit : Nat := 1000
deriving DecidableEq

namespace PagingSettings

/-- The size of a page: what was asked for or the default, between one and the
larger of one and the maximum. -/
def effectiveLimit (settings : PagingSettings) (requested : Option Nat) : Nat :=
  min (max (requested.getD settings.defaultLimit) 1) (max settings.maxLimit 1)

end PagingSettings

structure SchemaSettings where
  /-- The database of a container that is declared without one. -/
  defaultDatabase : Option String := none
deriving DecidableEq

structure Settings where
  loader : LoaderSettings := {}
  paging : PagingSettings := {}
  schema : SchemaSettings := {}
deriving DecidableEq

inductive SettingsError where
  /-- The text is not TOML, or its values do not fit. -/
  | unreadable
  /-- A batch has to hold at least one id. -/
  | zeroBatchSize
deriving DecidableEq

namespace SettingsError

def message : SettingsError → String
  | unreadable => "Failed to parse configuration"
  | zeroBatchSize => "loader.batch_size must be at least 1"

end SettingsError

namespace LoaderSettings

def ofMarkup? (form : Markup.RecordForm) (markup : Markup) : Option LoaderSettings := do
  match ← markup.fields? form ["batch_size", "batch_window_ms"] with
  | [batchSize, batchWindow] =>
    return {
      batchSize := ← Markup.withDefault 100 batchSize (·.natural?)
      batchWindow := ← Markup.withDefault 10 batchWindow (·.natural?) }
  | _ => none

end LoaderSettings

namespace PagingSettings

def ofMarkup? (form : Markup.RecordForm) (markup : Markup) : Option PagingSettings := do
  match ← markup.fields? form ["default_limit", "max_limit"] with
  | [defaultLimit, maxLimit] =>
    return {
      defaultLimit := ← Markup.withDefault 50 defaultLimit (·.natural?)
      maxLimit := ← Markup.withDefault 1000 maxLimit (·.natural?) }
  | _ => none

end PagingSettings

namespace SchemaSettings

def ofMarkup? (form : Markup.RecordForm) (markup : Markup) : Option SchemaSettings := do
  match ← markup.fields? form ["default_database"] with
  | [defaultDatabase] => return ⟨← Markup.optionalField defaultDatabase (·.text?)⟩
  | _ => none

end SchemaSettings

namespace Settings

def ofMarkup? (form : Markup.RecordForm) (markup : Markup) : Option Settings := do
  match ← markup.fields? form ["loader", "pagination", "schema"] with
  | [loader, paging, schema] =>
    return {
      loader := ← Markup.withDefault {} loader (LoaderSettings.ofMarkup? form)
      paging := ← Markup.withDefault {} paging (PagingSettings.ofMarkup? form)
      schema := ← Markup.withDefault {} schema (SchemaSettings.ofMarkup? form) }
  | _ => none

def check (settings : Settings) : Except SettingsError Settings :=
  if settings.loader.batchSize = 0 then .error .zeroBatchSize else .ok settings

def ofToml (text : String) : Except SettingsError Settings :=
  match (Toml.markup? text).bind (ofMarkup? Toml.recordForm) with
  | some settings => settings.check
  | none => .error .unreadable

/-- The TOML text of settings, unless a number is beyond the integers of TOML. -/
def toToml? (settings : Settings) : Option String :=
  let numbers := [settings.loader.batchSize, settings.loader.batchWindow,
    settings.paging.defaultLimit, settings.paging.maxLimit]
  if numbers.all fun number => (number : Int) ≤ Toml.Reader.integerLimit then
    let line (name : String) (number : Nat) := name ++ " = " ++ Nat.repr number ++ "\n"
    some ("[loader]\n" ++ line "batch_size" settings.loader.batchSize
      ++ line "batch_window_ms" settings.loader.batchWindow
      ++ "\n[pagination]\n" ++ line "default_limit" settings.paging.defaultLimit
      ++ line "max_limit" settings.paging.maxLimit
      ++ "\n[schema]\n" ++ match settings.schema.defaultDatabase with
        | some database =>
          "default_database = " ++ String.ofList (Toml.quoted database.toList) ++ "\n"
        | none => "")
  else none

def toValue (settings : Settings) : Value := .object [
  ("loader", .object [
    ("batch_size", .ofInt settings.loader.batchSize),
    ("batch_window_ms", .ofInt settings.loader.batchWindow)]),
  ("pagination", .object [
    ("default_limit", .ofInt settings.paging.defaultLimit),
    ("max_limit", .ofInt settings.paging.maxLimit)]),
  ("schema", .object [
    ("default_database", .optionalText settings.schema.defaultDatabase)])]

end Settings

end DocGraph
