import DocGraph.Json.Reader

namespace DocGraph

open Json

/-- The keys of every object increase, as they do in a value that was read. -/
inductive Json.Value.KeysIncrease : Value → Prop
  | null : KeysIncrease .null
  | boolean (value : Bool) : KeysIncrease (.boolean value)
  | number (value : Number) : KeysIncrease (.number value)
  | string (text : String) : KeysIncrease (.string text)
  | array {items : List Value} (each : ∀ item ∈ items, KeysIncrease item) :
      KeysIncrease (.array items)
  | object {members : List (String × Value)} (sorted : Keyed.Sorted members)
      (each : ∀ key value, (key, value) ∈ members → KeysIncrease value) :
      KeysIncrease (.object members)

theorem Json.Value.keysIncrease_ofMembers {members : List (String × Value)}
    (each : ∀ key value, (key, value) ∈ members → value.KeysIncrease) :
    (ofMembers members).KeysIncrease := by
  apply KeysIncrease.object (Keyed.Sorted.ofList members)
  intro key value member
  exact each key value (Keyed.subset_of_ofList members member)

namespace Markup

mutual

theorem keysIncrease_of_value? : ∀ {markup : Markup} {value : Value},
    markup.value? = some value → value.KeysIncrease
  | null, _, read => by
      cases read
      exact .null
  | boolean truth, _, read => by
      cases read
      exact .boolean truth
  | number _, _, read => by
      obtain ⟨number, _, rfl⟩ := Option.map_eq_some_iff.mp read
      exact .number number
  | string _, _, read => by
      obtain ⟨text, _, rfl⟩ := Option.map_eq_some_iff.mp read
      exact .string text
  | array _, _, read => by
      obtain ⟨values, each, rfl⟩ := Option.map_eq_some_iff.mp read
      exact .array (keysIncrease_of_items? each)
  | table _, _, read => by
      obtain ⟨pairs, each, rfl⟩ := Option.map_eq_some_iff.mp read
      exact Value.keysIncrease_ofMembers (keysIncrease_of_members? each)

theorem keysIncrease_of_items? : ∀ {items : List Markup} {values : List Value},
    items? items = some values → ∀ value ∈ values, value.KeysIncrease
  | [], _, read => by
      cases read
      exact nofun
  | first :: rest, _, read => by
      obtain ⟨value, head, read⟩ := Option.bind_eq_some_iff.mp read
      obtain ⟨values, tail, read⟩ := Option.bind_eq_some_iff.mp read
      cases read
      exact List.forall_mem_cons.mpr ⟨keysIncrease_of_value? head, keysIncrease_of_items? tail⟩

theorem keysIncrease_of_members? : ∀ {members : List (Option String × Markup)}
    {pairs : List (String × Value)}, members? members = some pairs →
      ∀ key value, (key, value) ∈ pairs → value.KeysIncrease
  | [], _, read => by
      cases read
      exact nofun
  | (key, first) :: rest, _, read => by
      obtain ⟨name, _, read⟩ := Option.bind_eq_some_iff.mp read
      obtain ⟨value, head, read⟩ := Option.bind_eq_some_iff.mp read
      obtain ⟨pairs, tail, read⟩ := Option.bind_eq_some_iff.mp read
      cases read
      intro key other member
      rcases List.mem_cons.mp member with same | later
      · cases same
        exact keysIncrease_of_value? head
      · exact keysIncrease_of_members? tail key other later

end

end Markup

namespace Json.Value

theorem keysIncrease_of_ofText? {text : String} {value : Value} (read : ofText? text = some value) :
    value.KeysIncrease := by
  obtain ⟨markup, _, read⟩ := Option.bind_eq_some_iff.mp read
  split at read
  · exact Markup.keysIncrease_of_value? read
  · cases read

theorem sorted_of_ofText? {text : String} {members : List (String × Value)}
    (read : ofText? text = some (object members)) : Keyed.Sorted members := by
  cases keysIncrease_of_ofText? read with
  | object sorted _ => exact sorted

end Json.Value

end DocGraph
