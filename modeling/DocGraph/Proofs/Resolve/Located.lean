import DocGraph.Proofs.Resolve.InternalFaults
import DocGraph.Proofs.Schema.DefaultDatabase

namespace DocGraph

open Json

namespace Scope

section

variable {scope : Scope} {decls : List TypeDecl} {resolver : FieldResolver} {info : FieldInfo}
  {source : Record} {arguments : Arguments} {supply : Supply} {database : String}

theorem Fails.unlocated {typename fieldname : String}
    (fails : scope.Fails supply resolver source arguments (.missingLocation typename fieldname)) :
    resolver.typename = typename ∧ resolver.field.fieldname = fieldname ∧
      resolver.strategy.Relates ∧ resolver.field.placement.location? = none := by
  cases fails with
  | location related unlocated => exact ⟨rfl, rfl, related, unlocated⟩

/-- With a default database, a relation has no location only if no declaration gives one to the
type that it returns. -/
theorem unplaced_of_unlocated (compiled : scope.graph.CompiledFrom decls)
    (given : scope.graph.settings.schema.defaultDatabase = some database)
    (known : scope.graph.resolver? info.parentType info.fieldname = some resolver)
    (relates : resolver.strategy.Relates)
    (unlocated : resolver.field.placement.location? = none) :
    Schema.Unplaced decls resolver.field.returnTypename := by
  have related := relates.related (compiled.follows known)
  obtain ⟨schema, entity, field, _, settled, member, rfl⟩ := compiled.exists_field known
  rw [given] at settled
  have located := Schema.located_of_compile settled
  obtain ⟨holder, inside⟩ := Schema.mem_fields.mp member
  have whole := located.relations entity holder field inside related
  exact located.unplaced entity holder field inside related (whole.container_eq_none unlocated)

/-- A default database leaves no place half known, and a field fails for want of a location only
if no declaration puts the type that it returns in a container. -/
theorem missing_locations_unplaced {schema : Schema}
    (settled : Schema.compile (some database) decls = .ok schema) :
    Schema.Located decls schema ∧
    ∀ {scope : Scope} {source : Record} {arguments : Arguments} {info : FieldInfo} {store : Store}
      {session after : Session} {patience place : Nat}
      {jobs : List (Job (Except ResolveError Resolved))}
      {job : Job (Except ResolveError Resolved)} {results : List (Except ResolveError Resolved)}
      {error : ResolveError},
      scope.graph.CompiledFrom decls →
      scope.graph.settings.schema.defaultDatabase = some database →
      Session.Reached store scope.graph.settings.loader session →
      session.run store scope.graph.settings.loader patience jobs = (.finished results, after) →
      jobs[place]? = some job → job.fetch = scope.resolve source arguments info →
      results[place]? = some (.error error) →
      ∃ cause, error = scope.graph.onError cause info ∧
        ∀ typename fieldname, cause.fault = .missingLocation typename fieldname →
          ∃ resolver, scope.graph.resolver? info.parentType info.fieldname = some resolver ∧
            resolver.typename = typename ∧ resolver.field.fieldname = fieldname ∧
            Schema.Unplaced decls resolver.field.returnTypename := by
  refine ⟨Schema.located_of_compile settled, ?_⟩
  intro scope source arguments info store session after patience place jobs job results error
    compiled given reached ran here resolves failed
  obtain ⟨result, came, led⟩ := reached.leads_of_job ran here
  obtain rfl := Option.some.inj (came.symm.trans failed)
  rw [resolves] at led
  cases known : scope.graph.resolver? info.parentType info.fieldname with
  | none =>
      rw [resolve_of_unknown compiled source arguments known] at led
      cases led
      exact ⟨_, rfl, nofun⟩
  | some resolver =>
      obtain ⟨ended, ends, same⟩ := yields_resolve known _ led
      cases ends with
      | answered => cases same
      | failed fails =>
          cases same
          refine ⟨_, rfl, fun typename fieldname missing => ⟨resolver, rfl, ?_⟩⟩
          obtain rfl : _ = ResolveFault.missingLocation typename fieldname := missing
          obtain ⟨typename, fieldname, relates, unlocated⟩ := fails.unlocated
          exact ⟨typename, fieldname, unplaced_of_unlocated compiled given known relates unlocated⟩

end

namespace Desk

/-- A desk keeps a note that is nowhere, and people are in the default database. -/
def decls : List TypeDecl := [
  (({ TypeDecl.named "Desk" with placement := ⟨none, some "Desks"⟩ }).withField
    { FieldDecl.named "note" "Note" with ours := some "noteId" }).withField
      { (FieldDecl.named "people" "Person").many with placement := ⟨none, some "People"⟩ },
  .named "Note", .named "Person"]

def note : Field :=
  { Owned.stored "note" "Note" .oneOurs with ours := some "noteId" }

def people : Field :=
  { Owned.stored "people" "Person" .manyRoot with
    returnMany := true
    placement := .full "app" "People"
    pagination := some true }

def schema : Schema := ⟨[
  ⟨"Desk", .full "app" "Desks", false, [note, people]⟩,
  ⟨"Note", .unknown, false, []⟩,
  ⟨"Person", .full "app" "People", false, []⟩]⟩

def settings : Settings := { schema := ⟨some "app"⟩ }

def graph : Graph := .ofCatalog (.ofSchema schema) settings

theorem settled : Schema.compile (some "app") decls = .ok schema := by
  simp only [Schema.compile, Schema.build, Schema.ofDecls, Schema.compileTypes, TypeDecl.compile,
    mergeSort_eq_insertionSort]
  rfl

theorem compiled : graph.CompiledFrom decls := Graph.compiledFrom_ofSchema settled

def scope : Scope := ⟨graph, ⟨"req", .null⟩⟩

def desk : Record := .ofValue (.object [("id", .string "d1"), ("noteId", .string "n1")])

def info : FieldInfo := ⟨"Desk", "note", .empty⟩

def nowhere : ResolveError :=
  .traced (frame ⟨"Desk", note, .ours⟩ desk) (.ofFault (.missingLocation "Desk" "note"))

def noted : List (Job (Except ResolveError Resolved)) := [⟨0, scope.resolve desk {} info⟩]

/-- The note of a desk is looked for, and no declaration puts notes anywhere. -/
theorem missing_locations_unplaced_note : ∃ after,
    (Session.new {}).run Owned.noOwners {} 2 noted = (.finished [.error nowhere], after) ∧
    Schema.Located decls schema ∧ Schema.Unplaced decls "Note" := by
  have ran : (Session.new {}).run Owned.noOwners {} 2 noted = (.finished [.error nowhere],
      ((Session.new {}).run Owned.noOwners {} 2 noted).2) := rfl
  obtain ⟨located, unplaced⟩ := missing_locations_unplaced settled
  obtain ⟨cause, same, missing⟩ := @unplaced scope desk {} info Owned.noOwners (.new {}) _ 2 0
    noted _ _ nowhere compiled rfl .new ran rfl rfl rfl
  obtain rfl : nowhere = cause := same
  obtain ⟨resolver, known, _, _, nothing⟩ := missing "Desk" "note" rfl
  have found : graph.resolver? "Desk" "note" = some ⟨"Desk", note, .ours⟩ := by decide
  obtain rfl := Option.some.inj (known.symm.trans found)
  exact ⟨_, ran, located, nothing⟩

end Desk

end Scope

end DocGraph
