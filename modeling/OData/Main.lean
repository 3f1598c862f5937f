import OData.CommandLine.Run

/-! # The program

Reads the files and variables that a command line needs, runs the command and
prints what it prints.  The program brings no connection of its own, so a command
that sends a request reports that no answer arrived.
-/
namespace OData
namespace CommandLine

/-- The variables that are looked up. -/
def variableNames : List String :=
  ["ODATA_BASE_URL", "ODATA_POLL_INTERVAL_MS", "ODATA_TIMEOUT_MS", "HOME", "USER"]

/-- The variables of a list that are set. -/
def readVariables (names : List String) : IO (NameMap String) := do
  let mut environment := NameMap.empty
  for name in names do
    if let some value ← IO.getEnv name then environment := environment.insert name value
  return environment

/-- The texts of the files of a list that can be read. -/
def readFiles (paths : List String) : IO (NameMap String) := do
  let mut files := NameMap.empty
  for path in paths do
    try files := files.insert path (← IO.FS.readFile path) catch _ => pure ()
  return files

/-- The path of the document with the settings of a user. -/
def defaultPath : IO String := do
  let directory ← match ← IO.getEnv "XDG_CONFIG_HOME" with
    | some directory => pure directory
    | none => pure (((← IO.getEnv "HOME").getD "") ++ "/.config")
  return directory ++ "/odata-client/config.toml"

/-- A number below `16 ^ width` in hexadecimal digits. -/
def hexDigits (width n : Nat) : String :=
  let digits := Nat.toDigits 16 (n % Nat.pow 16 width)
  String.ofList (List.replicate (width - digits.length) '0' ++ digits)

/-- Reports why a command failed. -/
def printReasons (reasons : List Reason) : IO Unit := do
  match reasons with
  | [] => return
  | first :: causes =>
    IO.eprintln ("Error: " ++ first.message)
    if !causes.isEmpty then IO.eprintln "\nCaused by:"
    match causes with
    | [cause] => IO.eprintln ("    " ++ cause.message)
    | causes =>
      for (cause, n) in causes.zipIdx do IO.eprintln s!"    {n}: {cause.message}"

/-- Reports what is wrong with a command line. -/
def printUsage (usage : Usage) : IO UInt32 := do
  let commands := String.intercalate ", " commandWords
  let text := s!"a command is one of {commands}"
  match usage with
  | .help | .version =>
    IO.println text
    return 0
  | _ =>
    IO.eprintln text
    return 2

/-- Runs a command in the world as it is. -/
def execute (globals : Globals) (command : Command) : IO UInt32 := do
  let path ← defaultPath
  let files ← readFiles (path :: Settings.envFileName :: globals.config.toList ++ command.paths)
  let environment ← readVariables variableNames
  let seed ← IO.rand 0 (Nat.pow 2 62)
  let world : World := {
    file? := files.get?
    styled := ← (← IO.getStdout).isTty
    transport := fun _ => throw (.failed (.transport "no connection"))
    freshId := fun n => hexDigits 8 (seed + n)
    boundary := "batch_" ++ hexDigits 32 seed
    innerBoundary := fun n => "changeset_" ++ hexDigits 32 (seed + n + 1)
    looks := 1000000 }
  let start := Session.start fun _ => ⟨0, false, .error "no connection"⟩
  let (report, _) := (run world ⟨files.get?, path, environment⟩ globals command).run start
  (← IO.getStdout).putStr report.printed.output
  (← IO.getStderr).putStr report.printed.notes
  match report.reasons with
  | none => return 0
  | some reasons =>
    printReasons reasons
    return 1

end CommandLine
end OData

/-- Runs the command that the words give. -/
def main (words : List String) : IO UInt32 :=
  match OData.CommandLine.read words with
  | .ok (globals, command) => OData.CommandLine.execute globals command
  | .error usage => OData.CommandLine.printUsage usage
