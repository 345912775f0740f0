import DocGraph.Query.Column
import DocGraph.Json.Value
import DocGraph.Schema.Placement

namespace DocGraph

open Json

inductive RowKind where
  | single
  | list
deriving DecidableEq, Repr

def RowKind.name : RowKind → String
  | single => "Single"
  | list => "List"

/-- Where a row came from. -/
structure Origin where
  kind : RowKind
  typename : String
  location : Location
  id : String
deriving DecidableEq

namespace Origin

def toValue (origin : Origin) : Value := .object [
  ("kind", .string origin.kind.name),
  ("typename", .string origin.typename),
  ("database", .string origin.location.database),
  ("container", .string origin.location.container),
  ("id", .string origin.id)]

end Origin

structure Record where
  value : Value
  /-- None for values that are not rows of a store. -/
  origin : Option Origin
deriving DecidableEq

namespace Record

def ofValue (value : Value) : Record := ⟨value, none⟩

/-- The text in the identifying column of a document. -/
def idOf? (value : Value) : Option String := (value.get? Column.id).bind (·.text?)

theorem idOf?_eq_some {document : Value} {id : String} :
    idOf? document = some id ↔ document.get? Column.id = some (.string id) := by
  unfold idOf?
  cases held : document.get? Column.id with
  | none => simp
  | some value => cases value <;> simp [Value.text?]

def ofRow (kind : RowKind) (typename : String) (location : Location) (row : Value) : Record where
  value := row
  origin := (idOf? row).map fun id => ⟨kind, typename, location, id⟩

/-- A column that was loaded; it may hold null. -/
def get? (record : Record) (column : String) : Option Value := record.value.get? column

def id? (record : Record) : Option String :=
  match record.origin with
  | some origin => some origin.id
  | none => idOf? record.value

/-- Adds the columns of a document that the record does not have yet. -/
def mergeColumns (record : Record) (fetched : Value) : Record :=
  match record.value, fetched with
  | .object held, .object columns =>
    let missing := columns.filter fun (column, _) => (Keyed.find? column held).isNone
    { record with
      value := .object (missing.foldl (fun sorted (column, value) =>
        Keyed.insert column value sorted) held) }
  | _, _ => record

/-- The document together with where it came from. -/
def toValue (record : Record) : Value := .object [
  ("value", record.value),
  ("source", (record.origin.map Origin.toValue).getD .null)]

end Record

end DocGraph
