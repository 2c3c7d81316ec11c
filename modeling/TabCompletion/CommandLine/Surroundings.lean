import TabCompletion.CommandLine.Invocation
import TabCompletion.Config.Document
import TabCompletion.PathCompletion
import TabCompletion.Schema.Demo
import TabCompletion.Schema.Document
import TabCompletion.Shell.Commands
import TabCompletion.Shell.Error

/-!
# What the program finds around it

Files, environment variables and the user's home directory; and what follows from them and from the
arguments: the configuration in effect and the commands of the shell.
-/

namespace TabCompletion

structure Surroundings where
  files : FileTree := {}
  home : String
  /-- The names of the environment variables. -/
  environment : List String := []

namespace Surroundings

variable (s : Surroundings)

/-! ### Configuration -/

/-- The configuration in a file; a file that is not there sets nothing. -/
def configAt (path : String) : Except ShellError Config :=
  if s.files.contains path then
    match s.files.read path with
    | .error e => .error (.file e)
    | .ok text => (Config.ofText s.home text).mapError .config
  else .ok (Config.default s.home)

open CommandLine (Invocation)

def configPath (i : Invocation) : String := i.configFile.getD (Config.defaultPath s.home)

/-- The log level that the arguments ask for: the strongest of them. -/
def levelFor (i : Invocation) (level : LogLevel) : LogLevel :=
  if i.veryVerbose then .trace
  else if i.verbose then .debug
  else if i.quiet then .error
  else level

def override (i : Invocation) (c : Config) : Config :=
  { c with
    display := { c.display with color := c.display.color && !i.noColor }
    logging := { c.logging with level := levelFor i c.logging.level } }

/-- The configuration in effect, and what was wrong with the one in the file, if it is not used. -/
def effectiveConfig (i : Invocation) : Except ShellError (Config × Option ConfigError) :=
  match s.configAt (s.configPath i) with
  | .error e => .error e
  | .ok c =>
    match c.validate with
    | .ok () => .ok (override i c, none)
    -- The default stands in for the whole file, and the arguments override it as well.
    | .error e => .ok (override i (Config.default s.home), some e)

/-! ### Commands -/

def environmentChoices : Offer :=
  .ok ((Sorting.stableSortByText String.toList s.environment).map .ofText)

/-- The choice sources that schemas may name. -/
def sources : Schema.Sources :=
  [("env_vars", .provider false fun _ => s.environmentChoices), ("paths", s.files.pathSource)]

/-- The commands of a schema file, or the demonstration commands where none is given. -/
def grammars (schema : Option String) : Except ShellError (List Grammar) :=
  match schema with
  | none => (Schema.buildAll s.sources Schema.Demo.commands).mapError .schema
  | some path =>
    if s.files.contains path then
      match s.files.read path with
      | .error e => .error (.file e)
      | .ok text => (Schema.load s.sources text).mapError .schema
    else .error (.config (.fileNotFound path))

def commands (schema : Option String) : Except ShellError CommandSet :=
  match s.grammars schema with
  | .error e => .error e
  | .ok gs => (CommandSet.ofGrammars gs).mapError .schema

end Surroundings

end TabCompletion
