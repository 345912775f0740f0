import DocGraph.Markup

/-!
# TOML tables

The statements of a TOML text build one tree of tables. A table is explicit when
a header or braces define it, implied when a header only passes through it, and
dotted when a dotted key does. No table is defined twice, and a dotted key never
reaches into an explicit table.
-/

namespace DocGraph.Toml

inductive TableKind where
  | explicit
  | implied
  | dotted
deriving DecidableEq

inductive Node where
  | value (content : Markup)
  | table (kind : TableKind) (entries : List (String × Node))
  /-- Tables that were defined one after the other under one header. -/
  | tables (items : List (List (String × Node)))

abbrev Entries := List (String × Node)

/-- One statement of a text. The last name of a path is the key itself. -/
inductive Statement where
  | pair (path : List String) (content : Markup)
  | header (path : List String)
  | arrayHeader (path : List String)

namespace Entries

def replace (name : String) (node : Node) (entries : Entries) : Entries :=
  entries.map fun entry => if entry.1 = name then (name, node) else entry

/-- Follows a path to a table and changes that table. Tables on the way that are
not there are made. A path through tables under one header leads into the last. -/
def changeAt (kind : TableKind) (change : TableKind → Entries → Option Entries) :
    List String → TableKind → Entries → Option Entries
  | [], reached, entries => change reached entries
  | name :: path, _, entries =>
    match Keyed.find? name entries with
    | none => do
      let inner ← changeAt kind change path kind []
      return entries ++ [(name, .table kind inner)]
    | some (.value _) => none
    | some (.table found inner) =>
      if kind = .dotted ∧ found = .explicit then none
      else do
        let inner ← changeAt kind change path found inner
        return replace name (.table found inner) entries
    | some (.tables items) =>
      match items.reverse with
      | last :: before => do
        let last ← changeAt kind change path .explicit last
        return replace name (.tables (last :: before).reverse) entries
      | [] => none

/-- Stores a value under a path of keys. The last key must be new, and a dotted
key only adds to tables that dotted keys made. -/
def addPair (path : List String) (content : Markup) (entries : Entries) : Option Entries :=
  match path.reverse with
  | [] => none
  | key :: outer =>
    changeAt .dotted (fun kind entries =>
      if (kind = .dotted) = outer.isEmpty then none
      else if (Keyed.find? key entries).isSome then none
      else some (entries ++ [(key, .value content)])) outer.reverse .explicit entries

/-- What a table has already when its header is met: nothing, or what headers
that passed through it have put there. -/
def begun? (path : List String) (entries : Entries) : Option Entries :=
  match path with
  | [] => none
  | [name] =>
    match Keyed.find? name entries with
    | none => some []
    | some (.table .implied inner) => some inner
    | some _ => none
  | name :: rest =>
    match Keyed.find? name entries with
    | none => some []
    | some (.table _ inner) => begun? rest inner
    | some (.tables items) =>
      match items.getLast? with
      | some last => begun? rest last
      | none => none
    | some (.value _) => none

/-- Stores a finished table under the path of its header. -/
def addTable (path : List String) (entries table : Entries) : Option Entries :=
  match path.reverse with
  | [] => none
  | name :: outer =>
    changeAt .implied (fun _ entries =>
      match Keyed.find? name entries with
      | none => some (entries ++ [(name, .table .explicit table)])
      | some _ => some (replace name (.table .explicit table) entries)) outer.reverse .explicit
      entries

/-- Appends a finished table to the tables under the path of its header. -/
def appendTable (path : List String) (entries table : Entries) : Option Entries :=
  match path.reverse with
  | [] => none
  | name :: outer =>
    changeAt .implied (fun _ entries =>
      match Keyed.find? name entries with
      | none => some (entries ++ [(name, .tables [table])])
      | some (.tables items) => some (replace name (.tables (items ++ [table])) entries)
      | some _ => none) outer.reverse .explicit entries

end Entries

/-- The header under which pairs are being collected. -/
inductive Section where
  | root
  | table (path : List String)
  | item (path : List String)

/-- A tree that is being built: the finished tables, and the table that the next
pair belongs to. -/
structure Builder where
  finished : Entries
  current : Section
  entries : Entries

namespace Builder

def start : Builder := ⟨[], .root, []⟩

def finish (builder : Builder) : Option Entries :=
  match builder.current with
  | .root => some builder.entries
  | .table path => builder.finished.addTable path builder.entries
  | .item path => builder.finished.appendTable path builder.entries

def step (builder : Builder) : Statement → Option Builder
  | .pair path content => do
    let entries ← builder.entries.addPair path content
    return { builder with entries }
  | .header path => do
    let finished ← builder.finish
    let begun ← finished.begun? path
    return ⟨finished, .table path, begun⟩
  | .arrayHeader path => do
    let finished ← builder.finish
    return ⟨finished, .item path, []⟩

end Builder

mutual

def Node.markup : Node → Markup
  | .value content => content
  | .table _ entries => .table (entriesMarkup entries)
  | .tables items => .array (tablesMarkup items)

def entriesMarkup : List (String × Node) → List (Option String × Markup)
  | [] => []
  | (name, node) :: rest => (some name, node.markup) :: entriesMarkup rest

def tablesMarkup : List (List (String × Node)) → List Markup
  | [] => []
  | table :: rest => .table (entriesMarkup table) :: tablesMarkup rest

end

/-- The table that pairs of keys and values between braces define. -/
def inlineTable? (pairs : List (List String × Markup)) : Option Markup := do
  let entries ← pairs.foldlM (fun (entries : Entries) (path, content) =>
    entries.addPair path content) []
  return .table (entriesMarkup entries)

/-- The table that the statements of a whole text define. -/
def document? (statements : List Statement) : Option Markup := do
  let builder ← statements.foldlM Builder.step Builder.start
  let entries ← builder.finish
  return .table (entriesMarkup entries)

end DocGraph.Toml
