import DocGraph.Proofs.Resolve.OneRecord

namespace DocGraph

open Json

def Fetch.Asks {α : Type} (fetch : Fetch α) (store : Store) (batchSize : Nat)
    (history earlier : History) (asked : StoreQuery) : Prop :=
  ∃ next, fetch.Reaches store batchSize history earlier (.query asked next)

/-- What a relation to one record makes of all rows of its query if it hides none: nothing,
the only record, or an error about their number. -/
inductive FieldResolver.HidesNone (resolver : FieldResolver) (location : Location) :
    List Value → Except ResolveFault Resolved → Prop
  | none : HidesNone resolver location [] (.ok .null)
  | one (row : Value) : HidesNone resolver location [row]
      (.ok (.record (Record.ofRow .single resolver.field.returnTypename location row)))
  | several {rows : List Value} (count : Nat) (more : 2 ≤ rows.length) :
      HidesNone resolver location rows
        (.error (.cardinality resolver.typename resolver.field.fieldname count))

theorem FieldResolver.hidesNone_shape_iff {resolver : FieldResolver}
    (one : resolver.field.returnMany = false) (location : Location) {items rows : List Value}
    (front : items <+: rows) :
    resolver.HidesNone location rows (resolver.shape
        (items.map (Record.ofRow .single resolver.field.returnTypename location))) ↔
      2 ≤ items.length ∨ items = rows := by
  obtain ⟨rest, rfl⟩ := front
  match items with
  | [] =>
      simp only [shape, one]
      constructor
      · intro hides
        cases hides
        exact .inr rfl
      · rintro (many | same)
        · contradiction
        · rw [← same]
          exact .none
  | [item] =>
      simp only [shape, one]
      constructor
      · intro hides
        cases hides
        exact .inr rfl
      · rintro (many | same)
        · contradiction
        · rw [← same]
          exact .one item
  | first :: second :: others =>
      simp only [shape, one]
      constructor
      · intro _
        exact .inl (by simp)
      · intro _
        exact .several _ (by simp)

namespace Scope

/-- An error of a field as its caller sees it. -/
def framed (scope : Scope) (resolver : FieldResolver) (source : Record) (info : FieldInfo)
    (fault : ResolveFault) : ResolveError :=
  scope.graph.onError (.traced (frame resolver source) (.ofFault fault)) info

section

variable {scope : Scope} {resolver : FieldResolver} {source : Record} {arguments : Arguments}
  {info : FieldInfo} {store : Store} {history earlier : History} {asked : StoreQuery}

theorem resolve_eq (known : scope.graph.resolver? info.parentType info.fieldname = some resolver) :
    scope.resolve source arguments info =
      (scope.fetchField resolver source arguments info.selection).map
        (·.mapError (scope.framed resolver source info)) := by
  rw [resolve, known]
  rfl

/-- The page that a relation to one record asks for is all that it goes on with. -/
theorem reaches_of_asks {batchSize : Nat}
    (known : scope.graph.resolver? info.parentType info.fieldname = some resolver)
    (one : resolver.field.returnMany = false) (flat : resolver.field.isPaginated = false)
    (keyed : resolver.strategy = .ours ∨ resolver.strategy = .theirs)
    (asks : (scope.resolve source arguments info).Asks store batchSize history earlier asked) :
    asked.cursor = none ∧ ∀ page, store earlier asked = .page page →
      (scope.resolve source arguments info).Reaches store batchSize history (earlier ++ [asked])
        (.done ((resolver.shape (page.items.map
          (Record.ofRow .single resolver.field.returnTypename asked.location))).mapError
            (scope.framed resolver source info))) := by
  obtain ⟨next, reaches⟩ := asks
  have visits := reaches.visits
  rw [resolve_eq known] at visits
  obtain ⟨before, visited, same⟩ := visits.of_map
  have stage := always_oneStage one flat keyed before visited
  cases stage with
  | load => cases same
  | failed => cases same
  | answered => cases same
  | query location select single =>
      rw [single] at same
      cases same
      exact ⟨rfl, fun page replied => reaches.trans (.answered replied .here)⟩

/-- A relation to one record that is queried for hides no row exactly if its page has two rows
or all of them. -/
theorem one_record_hides_none_iff {decls : List TypeDecl} {session : Session} {later : History}
    {rows : List Value} (compiled : scope.graph.CompiledFrom decls)
    (known : scope.graph.resolver? info.parentType info.fieldname = some resolver)
    (one : resolver.field.relation = .oneOurs ∨ resolver.field.relation = .oneTheirs)
    (flat : resolver.field.isPaginated = false)
    (rests : session.Rests scope.graph.settings.loader.batchSize)
    (asks : (scope.resolve source arguments info).Asks store
      scope.graph.settings.loader.batchSize session.history earlier asked)
    (drains : store.Drains earlier asked (.ok rows) later) :
    ∃ page result calls, store earlier asked = .page page ∧
      earlier ++ [asked] = session.history ++ calls ∧
      (scope.resolve source arguments info).Ends store scope.graph.settings.loader session
        (result.mapError (scope.framed resolver source info)) calls ∧
      (resolver.HidesNone asked.location rows result ↔
        2 ≤ page.items.length ∨ page.items = rows) := by
  obtain ⟨decl, _, stems⟩ := compiled.stems known
  obtain ⟨keyed, single, _⟩ := stems.one one
  obtain ⟨start, goesOn⟩ := reaches_of_asks known single flat keyed asks
  obtain ⟨page, replied, front⟩ := drains.first_page
  rw [← start] at replied
  obtain ⟨calls, grown⟩ : ∃ calls, earlier ++ [asked] = session.history ++ calls := by
    obtain ⟨next, reaches⟩ := asks
    obtain ⟨before, rfl⟩ := reaches.grows
    exact ⟨before ++ [asked], by simp⟩
  refine ⟨page, _, calls, replied, grown, ?_, resolver.hidesNone_shape_iff single _ front⟩
  apply Fetch.Reaches.ends rests
  rw [← grown]
  exact goesOn page replied

end

namespace Owned

def first : Value := .object [("id", .string "o1"), ("thingId", .string "1")]

def second : Value := .object [("id", .string "o2"), ("thingId", .string "1")]

def onePerPage : Store := fun _ query =>
  match query.cursor with
  | none => .page ⟨[first], some "next"⟩
  | some _ => .page ⟨[second], none⟩

def ownersOfThing : StoreQuery where
  context := ⟨"req", .null⟩
  location := ⟨"db", "Owners"⟩
  statement := ⟨"SELECT c.id FROM c WHERE c.thingId = @p1 ORDER BY c.id", [⟨"@p1", .string "1"⟩]⟩
  cursor := none
  limit := some 2

theorem asks_ownersOfThing (store : Store) (history : History) :
    ((scope false).resolve thing {} info).Asks store 100 history history ownersOfThing :=
  ⟨_, .here⟩

theorem drains_onePerPage : onePerPage.Drains [] ownersOfThing (.ok [first, second])
    [ownersOfThing, { ownersOfThing with cursor := some "next" }] :=
  ⟨2, rfl⟩

theorem reaches_first : ((scope false).resolve thing {} info).Reaches onePerPage 100 []
    [ownersOfThing] (.done (.ok (.record (.ofRow .single "Owner" ⟨"db", "Owners"⟩ first)))) := by
  have replied : onePerPage [] ownersOfThing = .page ⟨[first], some "next"⟩ := rfl
  exact .answered replied .here

/-- Of two owners, the one on the first page is taken for the only one. -/
theorem second_owner_hidden :
    (graph false).CompiledFrom (decls none) ∧
    (graph false).resolver? "Thing" "owner" = some (resolver false) ∧
    (resolver false).field.relation = .oneTheirs ∧ (resolver false).field.isPaginated = false ∧
    ((scope false).resolve thing {} info).Asks onePerPage 100 [] [] ownersOfThing ∧
    onePerPage.Drains [] ownersOfThing (.ok [first, second])
      [ownersOfThing, { ownersOfThing with cursor := some "next" }] ∧
    ((scope false).resolve thing {} info).Ends onePerPage {} (.new {})
      (.ok (.record (.ofRow .single "Owner" ⟨"db", "Owners"⟩ first))) [ownersOfThing] ∧
    ¬ (resolver false).HidesNone ⟨"db", "Owners"⟩ [first, second]
      (.ok (.record (.ofRow .single "Owner" ⟨"db", "Owners"⟩ first))) :=
  ⟨compiled_flat, by decide, rfl, rfl, asks_ownersOfThing _ _, drains_onePerPage,
    reaches_first.ends (Session.rests_new {}), nofun⟩

theorem one_record_hides_none_iff_owner : ∃ page result calls,
    onePerPage [] ownersOfThing = .page page ∧ [] ++ [ownersOfThing] = [] ++ calls ∧
    ((scope false).resolve thing {} info).Ends onePerPage {} (.new {})
      (result.mapError ((scope false).framed (resolver false) thing info)) calls ∧
    ((resolver false).HidesNone ⟨"db", "Owners"⟩ [first, second] result ↔
      2 ≤ page.items.length ∨ page.items = [first, second]) :=
  @one_record_hides_none_iff (scope false) (resolver false) thing {} info onePerPage []
    ownersOfThing (decls none) (.new {}) _ [first, second] compiled_flat (by decide) (.inr rfl) rfl
    (Session.rests_new {}) (asks_ownersOfThing _ _) drains_onePerPage

end Owned

end Scope

end DocGraph
