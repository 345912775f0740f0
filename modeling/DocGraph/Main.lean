import DocGraph.CommandLine.Program

namespace DocGraph.CommandLine

def readContent (file : String) : IO FileContent := do
  try
    return .text (← IO.FS.readFile file)
  catch error =>
    match error with
    | .noFileOrDirectory .. => return .missing
    | _ => return .unreadable

/-- The directory in which programs keep their settings. -/
def configDirectory : IO String := do
  match ← IO.getEnv "XDG_CONFIG_HOME", ← IO.getEnv "HOME" with
  | some directory, home =>
    if directory.startsWith "/" then return directory
    else return (home.map (· ++ "/.config")).getD "."
  | none, some home => return home ++ "/.config"
  | none, none => return "."

def programName : IO String := do
  let path := (← IO.appPath).toString
  match Text.splitAtLast? '/' path.toList with
  | some (_, name) => return String.ofList name
  | none => return path

end DocGraph.CommandLine

open DocGraph.CommandLine in
def main (arguments : List String) : IO UInt32 := do
  let defaultFile := (← configDirectory) ++ "/" ++ (← programName) ++ "/config.toml"
  let named := filesOf defaultFile arguments
  let contents ← named.mapM readContent
  let files (file : String) : FileContent := ((named.zip contents).lookup file).getD .missing
  match run files defaultFile arguments with
  | .success output =>
    IO.print output
    return 0
  | .failure message =>
    IO.eprintln ("Error: " ++ message)
    return 1
  | .usage =>
    IO.eprint helpText
    return 2
