import TabCompletion.CommandLine.ScriptShell
import TabCompletion.CommandLine.Surroundings
import TabCompletion.Shell.Reply
import TabCompletion.Shell.Terminal

/-!
# Running the program

`run` carries out an invocation up to the point where the shell would ask for its first line. A
`Report` holds what was written, and the configuration in effect or the error that ended the run.
-/

namespace TabCompletion.CommandLine

def programVersion : String := "0.3.0"

/-- What a run wrote and how it ended. -/
structure Report where
  stdout : String := ""
  stderr : String := ""
  /-- The configuration in effect, and whether all is done without a shell. -/
  result : Except ShellError (Config × Bool)

def textLines (lines : List String) : String := String.join (lines.map (· ++ "\n"))

def versionText : String :=
  textLines ["argshell version " ++ programVersion, "Rust version: 1.91"]

def banner (set : CommandSet) : String :=
  textLines
    [ "argshell " ++ programVersion,
      "Commands: " ++ ", ".intercalate set.names ++
        " (type 'help', press Tab to complete, Ctrl-D to quit)" ]

def warning (e : ConfigError) : String :=
  textLines
    [ "Warning: Configuration validation failed: " ++ (ShellError.config e).message,
      "Using default configuration instead." ]

/-- What is said of the configuration in a file. -/
def verdict (s : Surroundings) (path : String) : String :=
  if !s.files.contains path then "Configuration file does not exist"
  else
    match s.configAt path with
    | .error e => "Failed to load configuration: " ++ e.message
    | .ok c =>
      match c.validate with
      | .ok () => "Configuration is valid"
      | .error e => "Configuration validation failed: " ++ (ShellError.config e).message

def configText (s : Surroundings) (path : String) (c : Config) (display validate : Bool) :
    String :=
  (if validate then
    textLines ["Validating configuration file: " ++ path, verdict s path] else "") ++
  (if display then
    textLines ["Configuration file: " ++ path, "", "=== Effective Configuration ===", "", c.render]
  else "")

/-- The candidates at the end of a line, after the message that is shown in their place. -/
def candidatesText (set : CommandSet) (c : Config) (line : String) : String :=
  let (lines, message) := set.completeLine { settings := c.completion } line
  let terminal : Terminal := { color := c.display.color }
  (terminal.printAll message.toList).screen ++ lines

def Task.output (t : Task) (s : Surroundings) (i : Invocation) (c : Config) :
    Except ShellError String :=
  match t with
  | .version => .ok versionText
  | .completion shell => ((ScriptShell.ofName shell).mapError .config).map fun _ => ""
  | .config display validate => .ok (configText s (s.configPath i) c display validate)
  | .complete line => (s.commands i.schema).map fun set => candidatesText set c line
  | .help words =>
    (s.commands i.schema).map fun set => Text.trimEnd (set.helpText words) ++ "\n"

/-- What is written before the shell starts. -/
def greeting (s : Surroundings) (i : Invocation) : Except ShellError String :=
  (s.commands i.schema).map fun set => if i.quiet then "" else banner set

def run (s : Surroundings) (i : Invocation) : Report :=
  match s.effectiveConfig i with
  | .error e => { result := .error e }
  | .ok (c, fault) =>
    let stderr := (fault.map warning).getD ""
    let output := match i.task with
      | some task => task.output s i c
      | none => greeting s i
    match output with
    | .error e => { stderr, result := .error e }
    | .ok stdout => { stdout, stderr, result := .ok (c, i.task.isSome) }

end TabCompletion.CommandLine
