namespace DocGraph

structure Location where
  database : String
  container : String
deriving DecidableEq, Repr

structure Placement where
  database : Option String
  container : Option String
deriving DecidableEq, Repr

namespace Placement

def unknown : Placement := ⟨none, none⟩

instance : Inhabited Placement := ⟨unknown⟩

def full (database container : String) : Placement := ⟨some database, some container⟩

def location? (placement : Placement) : Option Location :=
  match placement.database, placement.container with
  | some database, some container => some ⟨database, container⟩
  | _, _ => none

/-- Fills each missing part from another placement. -/
def orElse (placement fallback : Placement) : Placement where
  database := placement.database.or fallback.database
  container := placement.container.or fallback.container

/-- Gives a container without a database the default one. -/
def withDefaultDatabase (default : Option String) (placement : Placement) : Placement :=
  if placement.container.isSome && placement.database.isNone then
    { placement with database := default }
  else placement

/-- The container and, if it is known, the database in front of it. -/
def describe (placement : Placement) : String :=
  let container := placement.container.getD ""
  match placement.database with
  | some database => database ++ "/" ++ container
  | none => container

end Placement

end DocGraph
