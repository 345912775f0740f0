import DocGraph.Proofs.Fetch.Loading
import DocGraph.Proofs.Resolve.KeyPaths
import DocGraph.Proofs.Resolve.Laziness

namespace DocGraph

open Json

namespace Json.Value

/-- Null stands for no key, and a text is one. -/
inductive IsKey : Value → Prop
  | null : IsKey .null
  | text (key : String) : IsKey (.string key)

/-- What comes first that is no key: all of a value, or an entry of its list. -/
inductive FirstOffending : Value → Value → Prop
  | whole {value : Value} (strange : ¬ value.IsKey) (single : ∀ items, value ≠ .array items) :
      FirstOffending value value
  | listed (before : List (Option String)) {item : Value} (after : List Value)
      (strange : ¬ item.IsKey) : FirstOffending
        (.array ((before.map fun key => key.elim .null .string) ++ item :: after)) item

theorem exists_key_or_not_isKey (value : Value) :
    (∃ key : Option String, value = key.elim .null .string) ∨ ¬ value.IsKey := by
  cases value with
  | null => exact .inl ⟨none, rfl⟩
  | string key => exact .inl ⟨some key, rfl⟩
  | _ =>
      refine .inr fun key => ?_
      cases key

theorem exists_keys_or_offending (items : List Value) :
    (∃ keys : List (Option String), items = keys.map fun key => key.elim .null .string) ∨
    ∃ (before : List (Option String)) (item : Value) (after : List Value), ¬ item.IsKey ∧
      items = (before.map fun key => key.elim .null .string) ++ item :: after := by
  induction items with
  | nil => exact .inl ⟨[], rfl⟩
  | cons first rest ih =>
      rcases exists_key_or_not_isKey first with ⟨key, rfl⟩ | strange
      · rcases ih with ⟨keys, rfl⟩ | ⟨before, item, after, strange, rfl⟩
        · exact .inl ⟨key :: keys, rfl⟩
        · exact .inr ⟨key :: before, item, after, strange, rfl⟩
      · exact .inr ⟨[], first, rest, strange, rfl⟩

/-- A value that does not keep keys has something that comes first among what is no key. -/
theorem firstOffending_of_not_keepsKeys {value : Value} (keyless : ∀ ids, ¬ value.KeepsKeys ids) :
    ∃ item, value.FirstOffending item := by
  cases value with
  | null => exact absurd .null (keyless [])
  | string key => exact absurd (.text key) (keyless [key])
  | array items =>
      rcases exists_keys_or_offending items with ⟨keys, rfl⟩ | ⟨before, item, after, strange, rfl⟩
      · exact absurd (.list keys) (keyless _)
      · exact ⟨item, .listed before after strange⟩
  | _ =>
      refine ⟨_, .whole (fun key => ?_) fun items same => ?_⟩
      · cases key
      · cases same

end Json.Value

theorem keysOf_of_firstOffending {value item : Value} (offends : value.FirstOffending item)
    (column : String) : keysOf column value = .error (.invalidKey column item) := by
  cases offends with
  | whole strange single =>
      cases value with
      | null => exact absurd .null strange
      | string key => exact absurd (.text key) strange
      | array items => exact absurd rfl (single items)
      | _ => rfl
  | listed before after strange =>
      rw [keysOf, ← fault?_eq_some, fault?_mapM]
      induction before with
      | nil =>
          cases item with
          | null => exact absurd .null strange
          | string key => exact absurd (.text key) strange
          | _ => rfl
      | cons key before ih => cases key <;> exact ih

theorem Json.Value.FirstOffending.unique {value item other : Value}
    (offends : value.FirstOffending item) (again : value.FirstOffending other) : item = other := by
  have same := (keysOf_of_firstOffending offends "").symm.trans (keysOf_of_firstOffending again "")
  cases same
  rfl

theorem Json.Value.FirstOffending.not_keepsKeys {value item : Value}
    (offends : value.FirstOffending item) (ids : List String) : ¬ value.KeepsKeys ids := by
  intro keeps
  cases (keysOf_of_firstOffending offends "").symm.trans (keysOf_of_keepsKeys keeps "")

/-- A record agrees with a row in some columns, and it was tagged with where that came from. -/
structure Record.Copies (record : Record) (typename : String) (location : Location)
    (columns : List String) (row : Value) : Prop where
  came : record.origin = (Record.idOf? row).map fun id => ⟨.single, typename, location, id⟩
  agrees : ∀ column ∈ columns, record.get? column = row.get? column

/-- The column of a record: as it was loaded, or else as it is in the document that the record
came from. -/
def Documents.columnOf (documents : Documents) (record : Record) (column : String) : Value :=
  match record.get? column, record.origin with
  | some value, _ => value
  | none, none => .null
  | none, some origin =>
    ((documents.rowOf? origin.location (Column.projected [column]) origin.id).bind
      (·.get? column)).getD .null

namespace Scope

section

variable (scope : Scope) (resolver : FieldResolver)

/-- The load of a column that a record lacks. -/
def LoadsColumn (source : Record) (column : String) (context : RequestContext)
    (request : LoadRequest) : Prop :=
  context = scope.context ∧ source.get? column = none ∧
    ∃ origin, source.origin = some origin ∧ request = origin.columnRequest column

/-- The load of related records, for some ids. -/
def LoadsRelated (location : Location) (selection : Selection) (ids : List String)
    (context : RequestContext) (request : LoadRequest) : Prop :=
  context = scope.context ∧ ids ≠ [] ∧
    request = resolver.loadRequest scope.graph.catalog location ids selection

/-- The records of some rows, in their order. -/
def ListsRows {ε : Type} (location : Location) (selection : Selection) (rows : List Value)
    (result : Except ε Resolved) : Prop :=
  ∃ records, result = .ok (.records records) ∧
    List.Forall₂ (fun row record => Record.Copies record resolver.field.returnTypename location
      (scope.relatedColumns resolver selection) row) rows records

end

section

variable {scope : Scope} {documents : Documents} {resolver : FieldResolver} {location : Location}
  {source : Record} {column : String} {ids : List String} {selection : Selection}

theorem onlyLoads_readColumn {wanted : Except ResolveFault Resolved → Prop} {batchSize : Nat}
    {next : Value → FieldFetch} (positive : 1 ≤ batchSize) (unique : documents.IdsUnique)
    {may : RequestContext → LoadRequest → Prop}
    (allowed : ∀ context request, scope.LoadsColumn source column context request →
      may context request)
    (onward : (next (documents.columnOf source column)).OnlyLoads (documents.supply batchSize) may
      wanted) :
    (scope.readColumn source column next).OnlyLoads (documents.supply batchSize) may wanted := by
  unfold Documents.columnOf at onward
  unfold readColumn
  cases held : source.get? column with
  | some value =>
      simp only [held] at onward ⊢
      exact onward
  | none =>
      cases came : source.origin with
      | none =>
          simp only [held, came] at onward ⊢
          exact onward
      | some origin =>
          simp only [held, came] at onward ⊢
          have fits : (origin.columnRequest column).Fits batchSize :=
            ⟨List.cons_ne_nil _ _, positive⟩
          refine .load (allowed _ _ ⟨rfl, held, origin, came, rfl⟩) fun reply given => ?_
          obtain ⟨values, rfl, reads⟩ := fits.reads unique given
          cases reads with
          | @cons _ value _ _ agree rest =>
              cases rest
              change Batch.AgreeOn _ (documents.rowOf? origin.location (Column.projected [column])
                origin.id) value at agree
              generalize documents.rowOf? _ _ _ = row at agree onward
              cases agree with
              | missing => exact onward
              | rows same =>
                  have inside : column ∈ (origin.columnRequest column).wanted :=
                    Column.mem_projected.mpr (.inr (.head _))
                  simp only [Option.bind_some, same column inside] at onward
                  exact onward

theorem copies_of_reads {rows values : List (Option Value)}
    (reads : List.Forall₂ (Batch.AgreeOn (scope.relatedColumns resolver selection)) rows values) :
    List.Forall₂ (fun row record => Record.Copies record resolver.field.returnTypename location
        (scope.relatedColumns resolver selection) row) (rows.filterMap id)
      ((values.filterMap id).map (resolver.loadedRecord location)) := by
  induction reads with
  | nil => exact .nil
  | cons agree _ ih =>
      cases agree with
      | missing => exact ih
      | @rows row value same =>
          refine .cons ⟨?_, fun column inside => (same column inside).symm⟩ ih
          have sameId : Record.idOf? value = Record.idOf? row := by
            unfold Record.idOf?
            rw [same Column.id (id_mem_relatedColumns selection)]
          rw [← sameId]
          rfl

theorem onlyLoads_loadRelated {batchSize : Nat} (unique : documents.IdsUnique)
    (located : resolver.location = .ok location) (many : resolver.field.returnMany = true)
    (asks : ids ≠ []) (fits : ids.length ≤ batchSize) :
    (scope.loadRelated resolver ids selection).OnlyLoads (documents.supply batchSize)
      (scope.LoadsRelated resolver location selection ids)
      (scope.ListsRows resolver location selection
        (scope.keyedRows resolver documents location selection ids)) := by
  let request := resolver.loadRequest scope.graph.catalog location ids selection
  have batched : request.Fits batchSize := ⟨asks, Nat.le_trans request.distinctIds_le fits⟩
  simp only [loadRelated, located]
  refine .load ⟨rfl, asks, rfl⟩ fun reply given => ?_
  obtain ⟨values, rfl, reads⟩ := batched.reads unique given
  refine .done ⟨_, FieldResolver.shape_of_many many _, ?_⟩
  have copies := @copies_of_reads scope resolver location selection
    (ids.map (documents.rowOf? location (scope.relatedColumns resolver selection))) values
    (List.forall₂_map_left_iff.mpr reads)
  rwa [List.filterMap_map, Function.id_comp] at copies

variable {decls : List TypeDecl} {info : FieldInfo} {arguments : Arguments} {store : Store}

theorem AlongKeys.returnMany (along : scope.AlongKeys decls info resolver column location)
    (many : resolver.field.relation = .manyOurs) : resolver.field.returnMany = true := by
  obtain ⟨_, _, stems⟩ := along.compiled.stems along.known
  rw [(stems.becomes.settles (by simp [many])).isMany, many]
  rfl

/-- Once the keys are read, a resolution asks for what its plan does. -/
theorem AlongKeys.onlyLoads (along : scope.AlongKeys decls info resolver column location)
    (positive : 1 ≤ scope.graph.settings.loader.batchSize) (unique : documents.IdsUnique)
    {may : RequestContext → LoadRequest → Prop} {wanted : Except ResolveFault Resolved → Prop}
    {plan : Except ResolveFault Plan}
    (allowed : ∀ context request, scope.LoadsColumn source column context request →
      may context request)
    (planned : resolver.planOurs scope.graph.settings.loader.batchSize arguments column
      (documents.columnOf source column) = plan)
    (executes : (scope.executePlanned resolver arguments info.selection plan).OnlyLoads
      (documents.supply scope.graph.settings.loader.batchSize) may wanted) :
    (scope.resolve source arguments info).OnlyLoads
      (documents.supply scope.graph.settings.loader.batchSize) may
      fun result => ∃ ended, wanted ended ∧
        result = ended.mapError (scope.framed resolver source info) := by
  have fetches : (scope.fetchField resolver source arguments info.selection).OnlyLoads
      (documents.supply scope.graph.settings.loader.batchSize) may wanted := by
    simp only [fetchField, along.settled.1, along.kept]
    exact onlyLoads_readColumn positive unique allowed (planned ▸ executes)
  rw [resolve_eq along.known]
  exact .map (fetches.imp fun ended held => ⟨ended, held, rfl⟩)

/-- Resolved along its keys, a relation to many records lists the documents of the keys in their
order, one for each key that names a document. Nothing but the column with the keys and, if
there are any, the records that they name is loaded. If the column holds anything else, the
first of it is the error. -/
theorem keys_followed (along : scope.AlongKeys decls info resolver column location)
    (many : resolver.field.relation = .manyOurs)
    (positive : 1 ≤ scope.graph.settings.loader.batchSize) (holds : store.Holds documents)
    (unique : documents.IdsUnique) (plain : arguments.Plain) :
    (∀ ids, (documents.columnOf source column).KeepsKeys ids →
      ids.length ≤ scope.graph.settings.loader.batchSize →
      (scope.resolve source arguments info).Settles store documents scope.graph.settings.loader
        (fun context request => scope.LoadsColumn source column context request ∨
          scope.LoadsRelated resolver location info.selection ids context request)
        (scope.ListsRows resolver location info.selection
          (scope.keyedRows resolver documents location info.selection ids))) ∧
    ((∀ ids, ¬ (documents.columnOf source column).KeepsKeys ids) →
      ∃ item, (documents.columnOf source column).FirstOffending item ∧
      (scope.resolve source arguments info).Settles store documents scope.graph.settings.loader
        (scope.LoadsColumn source column) fun result =>
          result = .error (scope.framed resolver source info (.invalidKey column item))) := by
  refine ⟨fun ids keeps fits => ?_, fun keyless => ?_⟩
  · have planned := FieldResolver.planOurs_plain plain along.flat
      (keysOf_of_keepsKeys keeps column) fits
    have executes : (scope.executePlanned resolver arguments info.selection
        (.ok (if ids.isEmpty then .answer resolver.nothing else .load ids))).OnlyLoads
        (documents.supply scope.graph.settings.loader.batchSize)
        (fun context request => scope.LoadsColumn source column context request ∨
          scope.LoadsRelated resolver location info.selection ids context request)
        (scope.ListsRows resolver location info.selection
          (scope.keyedRows resolver documents location info.selection ids)) := by
      cases ids with
      | nil =>
          refine .done ⟨[], ?_, .nil⟩
          simp [FieldResolver.nothing, along.returnMany many]
      | cons first rest =>
          exact (onlyLoads_loadRelated unique along.located (along.returnMany many)
            (List.cons_ne_nil first rest) fits).weaken fun _ _ => .inr
    have resolves := along.onlyLoads positive unique (fun _ _ => .inl) planned executes
    refine Fetch.OnlyLoads.settles holds (resolves.imp ?_)
    rintro _ ⟨_, ⟨records, rfl, copies⟩, rfl⟩
    exact ⟨records, rfl, copies⟩
  · obtain ⟨item, offends⟩ := Json.Value.firstOffending_of_not_keepsKeys keyless
    have planned : resolver.planOurs scope.graph.settings.loader.batchSize arguments column
        (documents.columnOf source column) = .error (.invalidKey column item) := by
      rw [FieldResolver.planOurs, keysOf_of_firstOffending offends column]
      rfl
    have resolves := along.onlyLoads positive unique (fun _ _ => id) planned
      (.done (rfl : _ = Except.error (ResolveFault.invalidKey column item)))
    refine ⟨item, offends, Fetch.OnlyLoads.settles holds (resolves.imp ?_)⟩
    rintro _ ⟨_, rfl, rfl⟩
    rfl

end

namespace Playlists

/-- A playlist keeps the keys of its songs. -/
def decls : List TypeDecl := [
  ((TypeDecl.named "Playlist").located "db" "Playlists").withField
    { (FieldDecl.named "songs" "Song").many with ours := some "songIds", pagination := some "off" },
  ((TypeDecl.named "Song").located "db" "Songs").withField (.named "title" "String")]

def songs : Field :=
  { Owned.stored "songs" "Song" .manyOurs with
    returnMany := true
    placement := .full "db" "Songs"
    ours := some "songIds" }

def schema : Schema := ⟨[
  ⟨"Playlist", .full "db" "Playlists", false, [songs]⟩,
  ⟨"Song", .full "db" "Songs", false, [Owned.stored "title" "String" .embedded]⟩]⟩

def scope : Scope := ⟨.ofCatalog (.ofSchema schema) {}, ⟨"req", .null⟩⟩

def info : FieldInfo := ⟨"Playlist", "songs", .of [("title", .empty)]⟩

def resolver : FieldResolver := ⟨"Playlist", songs, .ours⟩

def location : Location := ⟨"db", "Songs"⟩

theorem along : scope.AlongKeys decls info resolver "songIds" location where
  compiled := by
    have settled : Schema.compile none decls = .ok schema := by
      simp only [Schema.compile, Schema.build, Schema.ofDecls, Schema.compileTypes,
        TypeDecl.compile, mergeSort_eq_insertionSort]
      decide +kernel
    exact Graph.compiledFrom_ofSchema settled
  known := by decide
  relation := .inr rfl
  flat := rfl
  kept := rfl
  located := rfl

def waltz : Value := .object [("id", .string "s1"), ("title", .string "waltz")]

def playlist (id : String) (keys : List Value) : Value :=
  .object [("id", .string id), ("songIds", .array keys)]

/-- One playlist has a song twice and a song that is gone, the other has a number for a song. -/
def documents : Documents := fun place =>
  if place = location then [waltz]
  else [playlist "p1" [.string "s1", .null, .string "s9", .string "s1"],
    playlist "p2" [.string "s1", .ofInt 7]]

theorem unique : documents.IdsUnique := by
  intro place
  unfold documents
  split
  · exact List.pairwise_singleton _ _
  · refine List.pairwise_pair.mpr fun id first second => ?_
    exact absurd (first.trans second.symm) (by decide)

/-- A row of a playlist that was selected without the keys of its songs. -/
def row (id : String) : Record :=
  .ofRow .list "Playlist" ⟨"db", "Playlists"⟩ (.object [("id", .string id)])

def jobs : List (Job (Except ResolveError Resolved)) :=
  [⟨0, scope.resolve (row "p2") {} info⟩, ⟨0, scope.resolve (row "p1") {} info⟩]

theorem keeps : (documents.columnOf (row "p1") "songIds").KeepsKeys ["s1", "s9", "s1"] :=
  .list [some "s1", none, some "s9", some "s1"]

theorem offends : (documents.columnOf (row "p2") "songIds").FirstOffending (.ofInt 7) :=
  .listed [some "s1"] [] nofun

/-- Side by side, one playlist lists its song twice and the other fails for the number. -/
theorem keys_followed_playlists :
    (∃ enough results after records, (∀ patience, enough ≤ patience →
        (Session.new {}).run (.ofDocuments documents) {} patience jobs =
          (.finished results, after)) ∧
      results[1]? = some (.ok (.records records)) ∧
      List.Forall₂ (fun row record => Record.Copies record "Song" location ["id", "title"] row)
        [waltz, waltz] records) ∧
    ∃ enough results after, (∀ patience, enough ≤ patience →
        (Session.new {}).run (.ofDocuments documents) {} patience jobs =
          (.finished results, after)) ∧
      results[0]? = some (.error (scope.framed resolver (row "p2") info
        (.invalidKey "songIds" (.ofInt 7)))) := by
  have holds := Store.holds_ofDocuments documents
  refine ⟨?_, ?_⟩
  · have settles := (@keys_followed scope documents resolver location (row "p1") "songIds" decls
      info {} (.ofDocuments documents) along rfl (by decide) holds unique ⟨rfl, rfl⟩).1 _ keeps
      (by decide)
    obtain ⟨enough, results, after, _, runs, came, records, rfl, copies⟩ :=
      settles.company (.new {}) jobs 1 0 .new rfl
    exact ⟨enough, results, after, records, runs, came, copies⟩
  · obtain ⟨item, offending, settles⟩ := (@keys_followed scope documents resolver location
      (row "p2") "songIds" decls info {} (.ofDocuments documents) along rfl (by decide) holds
      unique ⟨rfl, rfl⟩).2 offends.not_keepsKeys
    obtain rfl := offending.unique offends
    obtain ⟨enough, results, after, _, runs, came, rfl⟩ :=
      settles.company (.new {}) jobs 0 0 .new rfl
    exact ⟨enough, results, after, runs, came⟩

end Playlists

end Scope

end DocGraph
