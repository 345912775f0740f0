import DocGraph.CommandLine.Invocation
import DocGraph.Json.Printer
import DocGraph.Json.Reader
import DocGraph.Query.Statement
import DocGraph.Schema.Compile
import DocGraph.Settings

namespace DocGraph.CommandLine

open Json

inductive FileContent where
  | missing
  /-- Something is there that has no text. -/
  | unreadable
  | text (content : String)

namespace FileContent

def text? : FileContent → Option String
  | text content => some content
  | _ => none

end FileContent

inductive Exit where
  | success (output : String)
  | failure (message : String)
  | usage
deriving DecidableEq

inductive ProgramError where
  | unreadableSettings (file : String)
  | settings (error : SettingsError)
  | unreadableDeclarations (file : String)
  | invalidDeclarations (format file : String)
  | unsupportedDeclarations (file : String)
  | schema (error : SchemaError)
  /-- The value of an option is not JSON. -/
  | invalidOption (option : String)
  | query (error : QueryError)
deriving DecidableEq

namespace ProgramError

def message : ProgramError → String
  | unreadableSettings file => s!"Failed to read config file: {file}"
  | settings error => error.message
  | unreadableDeclarations file => s!"Failed to read annotations: {file}"
  | invalidDeclarations format file => s!"Invalid {format} annotations: {file}"
  | unsupportedDeclarations file =>
    s!"Unsupported annotation file {file} (expected .toml or .json)"
  | schema error => error.message
  | invalidOption option => s!"--{option} is not valid JSON"
  | query error => error.message

end ProgramError

/-- What stands behind the last dot in the name of a file. A dot at the beginning
of the name does not count. -/
def extension? (file : String) : Option String :=
  let name := match Text.splitAtLast? '/' file.toList with
    | some (_, name) => name
    | none => file.toList
  match Text.splitAtLast? '.' name with
  | some (_ :: _, extension) => some (String.ofList extension)
  | _ => none

/-- The settings of a file, or of the default file if there is one. -/
def loadSettings (files : String → FileContent) (defaultFile : String) (config : Option String) :
    Except ProgramError Settings :=
  let file := config.getD defaultFile
  match files file, config with
  | .missing, none => .ok {}
  | .text content, _ => (Settings.ofToml content).mapError .settings
  | _, _ => .error (.unreadableSettings file)

/-- The declarations of a file, whose name says how they are written. -/
def loadDeclarations (files : String → FileContent) (file : String) :
    Except ProgramError (List TypeDecl) :=
  match (files file).text?, extension? file with
  | none, _ => .error (.unreadableDeclarations file)
  | some content, some "json" =>
    match (Json.markup? content).bind (TypeDecl.listOfMarkup? Json.recordForm) with
    | some decls => .ok decls
    | none => .error (.invalidDeclarations "JSON" file)
  | some content, some "toml" =>
    match (Toml.markup? content).bind (TypeDecl.listOfMarkup? Toml.recordForm) with
    | some decls => .ok decls
    | none => .error (.invalidDeclarations "TOML" file)
  | some _, _ => .error (.unsupportedDeclarations file)

/-- The client input in an option; without the option there is none. -/
def clientInput (option : String) (given : Option String) : Except ProgramError Value :=
  match given with
  | none => .ok .null
  | some text =>
    match Value.ofText? text with
    | some value => .ok value
    | none => .error (.invalidOption option)

def Command.output (files : String → FileContent) (settings : Settings) :
    Command → Except ProgramError Value
  | .schema file => do
    let decls ← loadDeclarations files file
    let schema ← (Schema.compile settings.schema.defaultDatabase decls).mapError .schema
    return schema.toValue
  | .explain file typename filter sort columns => do
    let decls ← loadDeclarations files file
    let schema ← (Schema.compile settings.schema.defaultDatabase decls).mapError .schema
    let filter ← clientInput "where" filter
    let sort ← clientInput "sort" sort
    let explanation ← ((Catalog.ofSchema schema).explain typename columns filter sort).mapError
      .query
    return explanation.toValue

def Invocation.output (files : String → FileContent) (defaultFile : String)
    (invocation : Invocation) : Except ProgramError Value := do
  let settings ← loadSettings files defaultFile invocation.config
  invocation.command.output files settings

def helpText : String :=
  "Commands:\n  meta ANNOTATIONS\n  explain ANNOTATIONS --type TYPE [--where JSON] [--sort JSON] [--columns NAMES]\nOptions:\n  --config FILE\n"

def versionText : String := "1\n"

def run (files : String → FileContent) (defaultFile : String) (arguments : List String) : Exit :=
  match Invocation.ofArguments arguments with
  | .error .help => .success helpText
  | .error .version => .success versionText
  | .error .invalid => .usage
  | .ok invocation =>
    match invocation.output files defaultFile with
    | .ok value => .success (value.pretty ++ "\n")
    | .error error => .failure error.message

def filesOf (defaultFile : String) (arguments : List String) : List String :=
  match Invocation.ofArguments arguments with
  | .error _ => []
  | .ok invocation =>
    let declarations := match invocation.command with
      | .schema file => file
      | .explain file _ _ _ _ => file
    [invocation.config.getD defaultFile, declarations]

end DocGraph.CommandLine
