import DocGraph.Schema.Basic
import DocGraph.Text.Bytes

namespace DocGraph

/-- An item that the order calls equal. The order tells on which side of an item to go on. -/
def search? {α : Type} (order : α → Ordering) (items : List α) : Option α :=
  if nonempty : 0 < items.length then
    let middle := items[items.length / 2]
    match order middle with
    | .eq => some middle
    | .gt => search? order (items.take (items.length / 2))
    | .lt => search? order (items.drop (items.length / 2 + 1))
  else none
termination_by items.length
decreasing_by all_goals simp only [List.length_take, List.length_drop]; omega

namespace Schema

def searchEntity? (schema : Schema) (typename : String) : Option Entity :=
  search? (fun entity => Text.compareBytes entity.typename typename) schema.entities

end Schema

namespace Entity

def searchField? (entity : Entity) (fieldname : String) : Option Field :=
  search? (fun field => Text.compareBytes field.fieldname fieldname) entity.fields

end Entity

end DocGraph
