import TabCompletion.CommandLine.Run
import TabCompletion.Shell.Prompt

/-!
# The program

Looks around (arguments, environment, the few files and directories that matter), lets the library
decide, and writes what it says. Where no task is given, lines are read and answered until the input
ends.
-/

namespace TabCompletion.CommandLine

def usageText : String :=
  textLines
    [ "An interactive shell whose commands are described by a TOML schema.",
      "Tab completes flags, choices and subcommands the way their grammar reads them.",
      "",
      "Usage: argshell [OPTIONS] [COMMAND]",
      "",
      "Commands:",
      "  version     Show version information",
      "  completion  Check the name of a shell to complete in",
      "  config      Show configuration",
      "  complete    Print the completions for a line, one per line",
      "  help        Print help for a command or subcommand",
      "",
      "Options:",
      "  -s, --schema <FILE>  Command schema file (TOML)",
      "  -c, --config <FILE>  Configuration file path",
      "      --no-color       Disable colored output",
      "  -q, --quiet          Quiet mode (minimal output)",
      "  -v, --verbose        Verbose mode (detailed logging)",
      "      --vv             Very verbose mode (debug logging)",
      "  -h, --help           Print help",
      "  -V, --version        Print version" ]

/-! ### Looking around -/

def environmentNames : IO (List String) := do
  try
    let entries := (← IO.FS.readFile "/proc/self/environ").splitOn "\x00"
    return (entries.filter (· != "")).map fun e => (e.splitOn "=").headD ""
  catch _ => return []

/-- Note down what a path leads to: a file with its text, or a directory with its members. -/
def survey (t : FileTree) (path : String) : IO FileTree := do
  try
    return t.plant path (.file (← IO.FS.readFile path))
  catch _ =>
    try
      let mut t := t.plant path .directory
      for entry in ← (← IO.FS.realPath path).readDir do
        let kind := if ← entry.path.isDir then FileNode.directory else .file ""
        t := t.plant (Path.join path entry.fileName) kind
      return t
    catch _ => return t

/-- The directory whose members a task may offer. -/
def directoriesOf : Option Task → List String
  | some (.complete line) =>
    [(PartialPath.ofText (Line.splitForCompletion line).text).directoryFrom "."]
  | _ => []

/-- What an invocation finds around it. -/
def lookAround (i : Invocation) : IO Surroundings := do
  let home := (← IO.getEnv "HOME").getD "."
  let here := Path.properNames (toString (← IO.currentDir))
  let s : Surroundings :=
    { files := .atDirectory here, home, environment := ← environmentNames }
  let paths := s.configPath i :: i.schema.toList ++ directoriesOf i.task
  return { s with files := ← paths.foldlM survey s.files }

/-! ### Talking -/

/-- Answer lines until the input ends. -/
partial def converse (set : CommandSet) (prompt : Prompt) : IO Unit := do
  IO.print prompt.left
  (← IO.getStdout).flush
  let line ← (← IO.getStdin).getLine
  if line.isEmpty then return
  match set.respond line with
  | some answer => IO.println answer
  | none => pure ()
  converse set prompt

/-- Write what a run wrote, and start the shell if it is still to be started. -/
def carryOut (i : Invocation) : IO UInt32 := do
  let s ← lookAround i
  let report := run s i
  IO.eprint report.stderr
  IO.print report.stdout
  match report.result, s.commands i.schema with
  | .error e, _ =>
    IO.eprintln ("Error: " ++ e.message)
    return 1
  | .ok (c, false), .ok set =>
    converse set ⟨c.display.prompt⟩
    unless i.quiet do IO.println "Goodbye!"
    return 0
  | _, _ => return 0

end TabCompletion.CommandLine

open TabCompletion.CommandLine in
def main (args : List String) : IO UInt32 := do
  match Invocation.ofArgs args with
  | .ok i => carryOut i
  | .error .displayHelp =>
    IO.print usageText
    return 0
  | .error .displayVersion =>
    IO.println ("argshell " ++ programVersion)
    return 0
  | .error fault =>
    IO.eprintln ("error: " ++ fault.message)
    return 2
