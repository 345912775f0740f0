import DocGraph.Proofs.Fetch.Sessions
import DocGraph.Proofs.Query.Acceptance
import DocGraph.Proofs.Resolve.Endings
import DocGraph.Proofs.Resolve.Tables

namespace DocGraph

open Json

/-- What client input can be refused for by itself, before any catalog is asked. -/
inductive QueryError.OfInput : QueryError → Prop
  | malformedKey (key : String) : OfInput (.malformedKey key)
  | unknownOperator (key operator : String) : OfInput (.unknownOperator key operator)
  | notAnObject (found : String) : OfInput (.invalidFilter (.notAnObject found))
  | notAnArray (combinator found : String) : OfInput (.invalidFilter (.notAnArray combinator found))
  | malformedSortKey (key : String) : OfInput (.malformedSortKey key)
  | sort (fault : SortInputFault) : OfInput (.invalidSort fault)

inductive QueryError.Internal : QueryError → Prop
  | notIndexed (name : String) : Internal (.invalidFilter (.notIndexed name))
  | missingType (trail : List String) (typename : String) :
      Internal (.schema ⟨trail, .missingType typename⟩)

inductive ResolveFault.Internal : ResolveFault → Prop
  | missingType (trail : List String) (typename : String) :
      Internal (.schema ⟨trail, .missingType typename⟩)
  | missingKey (typename field : String) {column : String} (other : column ≠ Column.id) :
      Internal (.missingKey typename field column)
  | tooManyIds (requested limit : Nat) : Internal (.loader (.tooManyIds requested limit))
  | query {error : QueryError} (internal : error.Internal) : Internal (.query error)

theorem QueryError.OfInput.not_internal {error : QueryError} (ofInput : error.OfInput) :
    ¬ error.Internal := by
  intro internal
  cases internal <;> cases ofInput

namespace Filter

theorem ofInput_of_parse {key : String} {error : QueryError}
    (failed : FilterKey.parse key = .error error) : error.OfInput := by
  unfold FilterKey.parse at failed
  simp only at failed
  split at failed
  · cases failed
    exact .malformedKey key
  · split at failed
    · cases failed
      exact .malformedKey key
    · split at failed
      · cases failed
      · cases failed
        exact .unknownOperator key _

theorem ofInput_of_ofTest {key : String} {value : Value} {error : QueryError}
    (failed : ofTest key value = .error error) : error.OfInput := by
  rw [← fault?_eq_some, ofTest, fault?_map, fault?_eq_some] at failed
  exact ofInput_of_parse failed

mutual

theorem ofInput_refuses : ∀ (value : Value) {error : QueryError},
    ofInput value = .error error → error.OfInput
  | .null, _, failed => by cases failed
  | .object members, _, failed => ofMembers_refuses members (by rwa [ofInput] at failed)
  | .boolean _, _, failed => by
      cases failed
      exact .notAnObject _
  | .number _, _, failed => by
      cases failed
      exact .notAnObject _
  | .string _, _, failed => by
      cases failed
      exact .notAnObject _
  | .array _, _, failed => by
      cases failed
      exact .notAnObject _

theorem ofMembers_refuses : ∀ (members : List (String × Value)) {error : QueryError},
    ofMembers members = .error error → error.OfInput
  | [], _, failed => by cases failed
  | (key, value) :: rest, _, failed => by
      rw [ofMembers] at failed
      rcases bind_eq_error.mp failed with failed | ⟨first, _, failed⟩
      · exact ofMember_refuses key value failed
      · rcases bind_eq_error.mp failed with failed | ⟨others, _, failed⟩
        · exact ofMembers_refuses rest failed
        · cases failed

theorem ofMember_refuses (key : String) : ∀ (value : Value) {error : QueryError},
    ofMember key value = .error error → error.OfInput
  | .array items, error, failed => by
      have grouped : ∀ build : List (List Filter) → Filter,
          (ofItems items).map build = .error error → error.OfInput := by
        intro build failed
        rw [← fault?_eq_some, fault?_map, fault?_eq_some] at failed
        exact ofItems_refuses items failed
      rw [ofMember] at failed
      split at failed
      · exact grouped _ failed
      · split at failed
        · exact grouped _ failed
        · exact ofInput_of_ofTest failed
  | .null, _, failed | .boolean _, _, failed | .number _, _, failed | .string _, _, failed
  | .object _, _, failed => by
      rw [ofMember] at failed
      · split at failed
        · cases failed
          exact .notAnArray key _
        · exact ofInput_of_ofTest failed
      · nofun

theorem ofItems_refuses : ∀ (items : List Value) {error : QueryError},
    ofItems items = .error error → error.OfInput
  | [], _, failed => by cases failed
  | item :: rest, _, failed => by
      rw [ofItems] at failed
      rcases bind_eq_error.mp failed with failed | ⟨first, _, failed⟩
      · exact ofInput_refuses item failed
      · rcases bind_eq_error.mp failed with failed | ⟨others, _, failed⟩
        · exact ofItems_refuses rest failed
        · cases failed

end

end Filter

theorem SortKey.ofInput_of_parse {key : String} {error : QueryError}
    (failed : parse key = .error error) : error.OfInput := by
  simp only [parse] at failed
  obtain ⟨_, same⟩ | ⟨_, same⟩ := ite_eq_iff.mp failed
  · cases same
    exact .malformedSortKey key
  · cases same

theorem SortKey.ofInput_refuses {value : Value} {error : QueryError}
    (failed : ofInput value = .error error) : error.OfInput := by
  cases value with
  | null => cases failed
  | object members =>
      rw [ofInput] at failed
      rcases bind_eq_error.mp failed with failed | ⟨ranked, _, failed⟩
      · rw [← fault?_eq_some, fault?_mapM] at failed
        obtain ⟨⟨written, priority⟩, _, failed⟩ := List.exists_of_findSome?_eq_some failed
        cases priority with
        | number priority =>
            simp only [RankedSortKey.ofMember, fault?_map, fault?_eq_some] at failed
            exact ofInput_of_parse failed
        | _ =>
            cases failed
            exact .sort _
      · cases failed
  | _ =>
      cases failed
      exact .sort _

namespace Catalog

variable {catalog : Catalog} {typename : String} {filters : List Filter} {keys : List SortKey}
  {error : QueryError}

/-- What a statement of a known type is refused for are its tests and its keys. -/
theorem Rejects.not_internal (known : ∃ entity, catalog.entity? typename = some entity)
    (rejects : catalog.Rejects typename filters keys error) : ¬ error.Internal := by
  intro internal
  cases rejects with
  | type unknown =>
      obtain ⟨entity, known⟩ := known
      exact nomatch known.symm.trans unknown
  | test _ _ _ refused => cases refused <;> cases internal
  | key => cases internal

theorem not_internal_of_select (known : ∃ entity, catalog.entity? typename = some entity)
    {columns : List String}
    (refused : catalog.select typename columns filters keys = .error error) :
    ¬ error.Internal := by
  rw [← fault?_eq_some, fault?_select, rejects_iff] at refused
  exact refused.not_internal known

theorem not_internal_of_count (known : ∃ entity, catalog.entity? typename = some entity)
    (refused : catalog.count typename filters = .error error) : ¬ error.Internal := by
  rw [← fault?_eq_some, fault?_count, rejects_iff] at refused
  exact refused.not_internal known

theorem entity?_of_requireEntity {entity : Entity}
    (required : catalog.requireEntity typename = .ok entity) :
    catalog.entity? typename = some entity := by
  unfold requireEntity at required
  split at required
  · next found =>
      cases required
      exact found
  · cases required

end Catalog

theorem Strategy.Relates.related {strategy : Strategy} {relation : Relation}
    (relates : strategy.Relates) (follows : strategy.Follows relation) : relation ≠ .embedded := by
  rintro rfl
  cases follows <;> cases relates

namespace Scope

section

variable {scope : Scope} {decls : List TypeDecl} {resolver : FieldResolver} {info : FieldInfo}
  {source : Record} {arguments : Arguments} {supply : Supply} {fault : ResolveFault}

theorem returns_of_relates (compiled : scope.graph.CompiledFrom decls)
    (known : scope.graph.resolver? info.parentType info.fieldname = some resolver)
    (relates : resolver.strategy.Relates) :
    ∃ entity, scope.graph.catalog.entity? resolver.field.returnTypename = some entity := by
  obtain ⟨_, _, stems⟩ := compiled.stems known
  obtain ⟨entity, required⟩ := stems.returns (relates.related (compiled.follows known))
  exact ⟨entity, Catalog.entity?_of_requireEntity required⟩

/-- No fault of a field of a compiled graph is internal, where loads get through that a batch
takes. -/
theorem Fails.not_internal (compiled : scope.graph.CompiledFrom decls)
    (positive : 1 ≤ scope.graph.settings.loader.batchSize)
    (known : scope.graph.resolver? info.parentType info.fieldname = some resolver)
    (takes : supply.TakesLoads scope.graph.settings.loader.batchSize)
    (fails : scope.Fails supply resolver source arguments fault) : ¬ fault.Internal := by
  have follows := compiled.follows known
  obtain ⟨_, _, stems⟩ := compiled.stems known
  have keeps := stems.becomes.keeps follows
  intro internal
  cases fails with
  | noOurs strategy unkept =>
      have kept := keeps.1 strategy
      simp [unkept] at kept
  | noTheirs strategy unkept =>
      have kept := keeps.2 strategy
      simp [unkept] at kept
  | noId =>
      cases internal with
      | missingKey _ _ other => exact other rfl
  | filter refused =>
      cases internal with
      | query internal => exact (Filter.ofInput_refuses _ refused).not_internal internal
  | sort refused =>
      cases internal with
      | query internal => exact (SortKey.ofInput_refuses refused).not_internal internal
  | select relates refused =>
      cases internal with
      | query internal =>
          exact Catalog.not_internal_of_select (returns_of_relates compiled known relates) refused
            internal
  | count relates refused =>
      cases internal with
      | query internal =>
          exact Catalog.not_internal_of_count (returns_of_relates compiled known relates) refused
            internal
  | @column origin column _ given =>
      cases internal with
      | tooManyIds =>
          have exceeds := takes _ _ _ _ given
          have single : (origin.columnRequest column).distinctIds ≤ 1 :=
            LoadRequest.distinctIds_le _
          omega
  | @records location ids selection _ fits given =>
      cases internal with
      | tooManyIds =>
          have exceeds := takes _ _ _ _ given
          have few : (resolver.loadRequest scope.graph.catalog location ids selection).distinctIds ≤
            ids.length := LoadRequest.distinctIds_le _
          omega
  | key => cases internal
  | location => cases internal
  | cardinality => cases internal
  | store => cases internal

/-- Without a resolver, the joined name of the field is what is missing. -/
theorem resolve_of_unknown (compiled : scope.graph.CompiledFrom decls) (source : Record)
    (arguments : Arguments)
    (unknown : scope.graph.resolver? info.parentType info.fieldname = none) :
    scope.resolve source arguments info = .done (.error (scope.graph.onError (.ofFault
      (.schema (.ofFault (.missingField (joinedName info.parentType info.fieldname))))) info)) := by
  have missing := compiled.resolver? info.parentType info.fieldname
  rw [unknown] at missing
  simp only [resolve, unknown, missingResolver, Catalog.requireField, ← missing, Option.map_none,
    Catalog.orMissing]

/-- Whatever else runs with it, no field of a compiled graph ends with an internal error, and
one without a resolver ends with the name of what is missing. -/
theorem internal_errors_unreachable {store : Store} {session after : Session}
    {patience place : Nat} {jobs : List (Job (Except ResolveError Resolved))}
    {job : Job (Except ResolveError Resolved)} {results : List (Except ResolveError Resolved)}
    (compiled : scope.graph.CompiledFrom decls)
    (positive : 1 ≤ scope.graph.settings.loader.batchSize)
    (reached : Session.Reached store scope.graph.settings.loader session)
    (ran : session.run store scope.graph.settings.loader patience jobs = (.finished results, after))
    (here : jobs[place]? = some job) (resolves : job.fetch = scope.resolve source arguments info) :
    (∀ error, results[place]? = some (.error error) →
      ∃ cause, ¬ cause.fault.Internal ∧ error = scope.graph.onError cause info) ∧
    (scope.graph.resolver? info.parentType info.fieldname = none →
      results[place]? = some (.error (scope.graph.onError (.ofFault (.schema (.ofFault
        (.missingField (joinedName info.parentType info.fieldname))))) info))) := by
  obtain ⟨result, came, led⟩ := reached.leads_of_job ran here
  rw [resolves] at led
  refine ⟨fun error failed => ?_, fun unknown => ?_⟩
  · obtain rfl := Option.some.inj (came.symm.trans failed)
    cases known : scope.graph.resolver? info.parentType info.fieldname with
    | none =>
        rw [resolve_of_unknown compiled source arguments known] at led
        cases led
        refine ⟨_, fun internal => ?_, rfl⟩
        cases internal
    | some resolver =>
        obtain ⟨ended, ends, same⟩ := yields_resolve known _ led
        cases ends with
        | answered => cases same
        | failed fails =>
            cases same
            have takes := store.supply_takesLoads scope.graph.settings.loader.batchSize
              after.history
            exact ⟨_, fails.not_internal compiled positive known takes, rfl⟩
  · rw [resolve_of_unknown compiled source arguments unknown] at led
    cases led
    exact came

end

namespace Owned

def nameless : Record := .ofValue (.object [])

def nobody : FieldInfo := ⟨"Thing", "nobody", .empty⟩

def failing : List (Job (Except ResolveError Resolved)) :=
  [⟨0, (scope false).resolve nameless {} info⟩, ⟨0, (scope false).resolve thing {} nobody⟩]

/-- Two fields that fail in one run: an owner whose thing has no id, and a field that is not
declared. -/
theorem internal_errors_unreachable_owner : ∃ first second after,
    (Session.new {}).run noOwners {} 2 failing = (.finished [.error first, .error second], after) ∧
    first = .traced ⟨"theirs", "Thing", none, "owner"⟩
      (.ofFault (.missingKey "Thing" "owner" Column.id)) ∧
    (∃ cause, ¬ cause.fault.Internal ∧ first = (graph false).onError cause info) ∧
    second = (graph false).onError
      (.ofFault (.schema (.ofFault (.missingField (joinedName "Thing" "nobody"))))) nobody := by
  have ran : (Session.new {}).run noOwners {} 2 failing =
      (.finished [
        .error (.traced ⟨"theirs", "Thing", none, "owner"⟩
          (.ofFault (.missingKey "Thing" "owner" Column.id))),
        .error (.ofFault (.schema (.ofFault (.missingField (joinedName "Thing" "nobody")))))],
        ((Session.new {}).run noOwners {} 2 failing).2) := rfl
  obtain ⟨sound, _⟩ := @internal_errors_unreachable (scope false) (decls none) info nameless {}
    noOwners (.new {}) _ 2 0 failing _ _ compiled_flat (by decide) .new ran rfl rfl
  obtain ⟨_, named⟩ := @internal_errors_unreachable (scope false) (decls none) nobody thing {}
    noOwners (.new {}) _ 2 1 failing _ _ compiled_flat (by decide) .new ran rfl rfl
  exact ⟨_, _, _, ran, rfl, sound _ rfl, (Except.error.inj (Option.some.inj (named rfl)))⟩

end Owned

end Scope

end DocGraph
