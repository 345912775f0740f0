import DocGraph.Text.Split

/-!
# Command lines

What the arguments of a command line ask for. The program has two commands,
`meta` and `explain`, each with one file of declarations. Options may stand
anywhere behind their command; the option for the settings also stands in front
of it, and the one behind the command then counts. Behind `--` everything is a
plain argument.
-/

namespace DocGraph.CommandLine

inductive Command where
  | schema (declarations : String)
  | explain (declarations typename : String) (filter sort : Option String)
      (columns : List String)
deriving DecidableEq

structure Invocation where
  /-- The file of settings; without one the default file counts if it exists. -/
  config : Option String
  command : Command
deriving DecidableEq

inductive Halt where
  | help
  | version
  /-- The arguments fit no command. -/
  | invalid
deriving DecidableEq

inductive Verb where
  | schema
  | explain
deriving DecidableEq

def Verb.ofName? : String → Option Verb
  | "meta" => some .schema
  | "explain" => some .explain
  | _ => none

/-- Which part of the command line is being read. -/
inductive Level where
  /-- In front of the command. -/
  | program
  | verb (verb : Verb)
  /-- Behind `help`, where at most one command may be named. -/
  | help (named : Bool)
deriving DecidableEq

/-- How often an option may be given, and what its values are. -/
inductive OptionKind where
  /-- Once, and not empty. -/
  | path
  | text
  /-- Any number of times; a comma separates values. -/
  | list
deriving DecidableEq

def Level.options : Level → List (String × OptionKind)
  | program => [("config", .path)]
  | verb .schema => [("config", .path)]
  | verb .explain =>
    [("config", .path), ("type", .text), ("where", .text), ("sort", .text), ("columns", .list)]
  | help _ => []

structure Reading where
  level : Level := .program
  /-- The settings named in front of the command. -/
  outerConfig : Option String := none
  given : List (String × String) := []
  declarations : Option String := none
  awaiting : Option String := none
  /-- Whether only plain arguments follow. -/
  plainOnly : Bool := false

namespace Reading

def valuesOf (reading : Reading) (option : String) : List String :=
  (reading.given.filter (·.1 == option)).map (·.2)

def value? (reading : Reading) (option : String) : Option String := (reading.valuesOf option).head?

def give (option value : String) (reading : Reading) : Except Halt Reading :=
  let given (values : List String) : Reading :=
    { reading with
      given := reading.given ++ values.map fun value => (option, value)
      awaiting := none }
  match reading.level.options.lookup option with
  | none => .error .invalid
  | some .list => .ok (given ((Text.pieces ',' value.toList).map String.ofList))
  | some .text =>
    if (reading.value? option).isSome then .error .invalid else .ok (given [value])
  | some .path =>
    if (reading.value? option).isSome || value.isEmpty then .error .invalid
    else .ok (given [value])

/-- Stops, unless an option still lacks its value. -/
def halt (reading : Reading) (reason : Halt) : Except Halt Reading :=
  .error (if reading.awaiting.isSome then .invalid else reason)

def long (text : List Char) (reading : Reading) : Except Halt Reading :=
  if reading.awaiting.isSome then .error .invalid
  else
    match Text.splitAtFirst? '=' text with
    | some (option, value) => reading.give (String.ofList option) (String.ofList value)
    | none =>
      let option := String.ofList text
      if (reading.level.options.lookup option).isSome then
        .ok { reading with awaiting := some option }
      else if option = "help" then .error .help
      else if option = "version" ∧ reading.level = .program then .error .version
      else .error .invalid

def short (text : List Char) (reading : Reading) : Except Halt Reading :=
  match text with
  | 'h' :: _ => reading.halt .help
  | 'V' :: _ => reading.halt (if reading.level = .program then .version else .invalid)
  | _ => .error .invalid

def plain (argument : String) (reading : Reading) : Except Halt Reading :=
  match reading.level with
  | .program =>
    if reading.plainOnly then .error .invalid
    else if argument = "help" then .ok { reading with level := .help false }
    else
      match Verb.ofName? argument with
      | some verb => .ok { level := .verb verb, outerConfig := reading.value? "config" }
      | none => .error .invalid
  | .verb _ =>
    if reading.declarations.isSome || argument.isEmpty then .error .invalid
    else .ok { reading with declarations := some argument }
  | .help _ => .error .invalid

def topic (argument : String) (named : Bool) (reading : Reading) : Except Halt Reading :=
  if !named && (argument = "help" || (Verb.ofName? argument).isSome) then
    .ok { reading with level := .help true }
  else .error .invalid

def next (reading : Reading) (argument : String) : Except Halt Reading :=
  match reading.level, reading.plainOnly, argument.toList with
  | .help named, _, _ => reading.topic argument named
  | _, true, _ => reading.plain argument
  | _, false, ['-', '-'] =>
    if reading.awaiting.isSome then .error .invalid else .ok { reading with plainOnly := true }
  | _, false, '-' :: '-' :: text => reading.long text
  | _, false, '-' :: char :: text => reading.short (char :: text)
  | _, false, _ =>
    match reading.awaiting with
    | some option => reading.give option argument
    | none => reading.plain argument

/-- What was asked for, when all arguments were read. -/
def finish (reading : Reading) : Except Halt Invocation :=
  let config := (reading.value? "config").or reading.outerConfig
  match reading.awaiting, reading.level, reading.declarations with
  | none, .help _, _ => .error .help
  | none, .verb .schema, some declarations => .ok ⟨config, .schema declarations⟩
  | none, .verb .explain, some declarations =>
    match reading.value? "type" with
    | some typename => .ok ⟨config, .explain declarations typename (reading.value? "where")
        (reading.value? "sort") (reading.valuesOf "columns")⟩
    | none => .error .invalid
  | _, _, _ => .error .invalid

end Reading

def Invocation.ofArguments (arguments : List String) : Except Halt Invocation :=
  (arguments.foldlM Reading.next {}).bind Reading.finish

end DocGraph.CommandLine
