import DocGraph.Proofs.Schema.Compiled

namespace DocGraph

open SchemaError

def SchemaFault.IsConflict (fault : SchemaFault) : Prop :=
  ∃ typename first second, fault = .conflictingLocation typename first second

namespace Schema

/-- What one field adds to the placements declared by the fields before it. -/
def declare (declared : List (String × Placement)) (pair : Entity × Field) :
    Except SchemaError (List (String × Placement)) :=
  if pair.2.placement.container.isNone then .ok declared
  else
    match Keyed.find? pair.2.returnTypename declared with
    | none => .ok (Keyed.insert pair.2.returnTypename pair.2.placement declared)
    | some first =>
      if first = pair.2.placement then .ok declared
      else .error (inType pair.1.typename (inField pair.2.fieldname (ofFault
        (.conflictingLocation pair.2.returnTypename first.describe pair.2.placement.describe))))

theorem declaredPlacements_eq_foldlM (schema : Schema) :
    schema.declaredPlacements = schema.fields.foldlM declare [] := rfl

variable {declared next : List (String × Placement)} {pair : Entity × Field} {error : SchemaError}

theorem isConflict_of_declare (failed : declare declared pair = .error error) :
    error.fault.IsConflict := by
  unfold declare at failed
  split at failed
  · contradiction
  · split at failed
    · contradiction
    · split at failed
      · contradiction
      · cases failed
        exact ⟨_, _, _, rfl⟩

/-- A field with a container finds its own placement afterwards, and what was declared
before stays. -/
theorem find?_of_declare (done : declare declared pair = .ok next) :
    (∀ typename placement, Keyed.find? typename declared = some placement →
      Keyed.find? typename next = some placement) ∧
    (pair.2.placement.container.isSome →
      Keyed.find? pair.2.returnTypename next = some pair.2.placement) := by
  unfold declare at done
  split at done
  · next none =>
      cases done
      refine ⟨fun _ _ known => known, fun some => ?_⟩
      rw [Option.isNone_iff_eq_none.mp none] at some
      contradiction
  · split at done
    · next fresh =>
        cases done
        refine ⟨fun typename placement known => ?_, fun _ => ?_⟩
        · rw [Keyed.find?_insert]
          split
          · next same =>
              rw [same, fresh] at known
              contradiction
          · exact known
        · rw [Keyed.find?_insert, if_pos rfl]
    · next first known =>
        split at done
        · next same =>
            cases done
            exact ⟨fun _ _ known => known, fun _ => same ▸ known⟩
        · contradiction

theorem find?_of_foldlM_declare {pairs : List (Entity × Field)}
    (done : pairs.foldlM declare declared = .ok next) :
    (∀ typename placement, Keyed.find? typename declared = some placement →
      Keyed.find? typename next = some placement) ∧
    ∀ pair ∈ pairs, pair.2.placement.container.isSome →
      Keyed.find? pair.2.returnTypename next = some pair.2.placement := by
  induction pairs generalizing declared with
  | nil =>
      rw [List.foldlM_nil] at done
      obtain rfl := pure_eq_ok.mp done
      exact ⟨fun _ _ known => known, fun _ member => absurd member List.not_mem_nil⟩
  | cons first rest ih =>
      rw [List.foldlM_cons] at done
      obtain ⟨between, here, later⟩ := bind_eq_ok.mp done
      obtain ⟨kept, own⟩ := find?_of_declare here
      obtain ⟨keptOn, others⟩ := ih later
      refine ⟨fun typename placement known => keptOn _ _ (kept _ _ known), ?_⟩
      rintro pair member contained
      rcases List.mem_cons.mp member with rfl | member
      · exact keptOn _ _ (own contained)
      · exact others pair member contained

theorem find?_declaredPlacements {schema : Schema} (done : schema.declaredPlacements = .ok declared)
    (member : pair ∈ schema.fields) (contained : pair.2.placement.container.isSome) :
    Keyed.find? pair.2.returnTypename declared = some pair.2.placement := by
  rw [declaredPlacements_eq_foldlM] at done
  exact (find?_of_foldlM_declare done).2 pair member contained

theorem isConflict_of_foldlM_declare {pairs : List (Entity × Field)}
    (failed : pairs.foldlM declare declared = .error error) : error.fault.IsConflict := by
  induction pairs generalizing declared with
  | nil => exact nomatch failed
  | cons first rest ih =>
      rw [List.foldlM_cons, bind_eq_error] at failed
      rcases failed with here | ⟨between, _, later⟩
      · exact isConflict_of_declare here
      · exact ih later

/-- Placements are not declared only if two of them conflict. -/
theorem isConflict_of_declaredPlacements {schema : Schema}
    (failed : schema.declaredPlacements = .error error) : error.fault.IsConflict := by
  rw [declaredPlacements_eq_foldlM] at failed
  exact isConflict_of_foldlM_declare failed

end Schema

end DocGraph
