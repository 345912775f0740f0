import DocGraph.Json.Value
import DocGraph.Query.Error
import DocGraph.Text.Split

namespace DocGraph

open Json

inductive Direction where
  | ascending
  | descending
deriving DecidableEq, Repr

def Direction.name : Direction → String
  | ascending => "ASC"
  | descending => "DESC"

structure SortKey where
  field : String
  direction : Direction
deriving DecidableEq

namespace SortKey

/-- Takes a key apart into its direction and a field that is not empty. -/
def parse (key : String) : Except QueryError SortKey :=
  let (field, direction) := match Text.beforeEnd? "_ASC".toList key.toList with
    | some field => (field, Direction.ascending)
    | none =>
      match Text.beforeEnd? "_DESC".toList key.toList with
      | some field => (field, Direction.descending)
      | none => ([], Direction.ascending)
  if field.isEmpty then .error (.malformedSortKey key)
  else .ok ⟨String.ofList field, direction⟩

end SortKey

/-- A sort key with the priority that the client gave it. -/
structure RankedSortKey where
  priority : Double
  written : String
  key : SortKey

namespace RankedSortKey

/-- The more important key comes first: the one of lower priority, or of equal
priorities the one written with the lesser text. -/
def precedes (left right : RankedSortKey) : Bool :=
  left.priority.orderKey < right.priority.orderKey
    || (left.priority.orderKey == right.priority.orderKey && left.written ≤ right.written)

/-- One member of a sort object. The priority is looked at before the key. -/
def ofMember (written : String) : Value → Except QueryError RankedSortKey
  | .number priority =>
    (SortKey.parse written).map fun key => ⟨priority.toDouble, written, key⟩
  | _ => .error (.invalidSort (.priorityNotANumber written))

end RankedSortKey

namespace SortKey

/-- The sort keys of client input in order; null means no sort. -/
def ofInput : Value → Except QueryError (List SortKey)
  | .null => .ok []
  | .object members => do
    let ranked ← members.mapM fun (written, priority) => RankedSortKey.ofMember written priority
    return (ranked.mergeSort RankedSortKey.precedes).map (·.key)
  | _ => .error (.invalidSort .notAnObject)

end SortKey

end DocGraph
