import TabCompletion.Completion.Host
import TabCompletion.FileTree

/-!
# Configuration

What can be set for the shell, what applies where nothing is set, and which settings are refused.
-/

namespace TabCompletion

inductive LogLevel where
  | error
  | warn
  | info
  | debug
  | trace
  deriving DecidableEq, Repr

namespace LogLevel

def all : List LogLevel := [error, warn, info, debug, trace]

def name : LogLevel → String
  | error => "error"
  | warn => "warn"
  | info => "info"
  | debug => "debug"
  | trace => "trace"

def ofName? (s : String) : Option LogLevel := all.find? (·.name == s)

end LogLevel

structure DisplaySettings where
  color : Bool := true
  prompt : String := "(argshell) "
  deriving DecidableEq, Repr

structure HistorySettings where
  maxSize : Nat := 1000
  filePath : String
  /-- Whether the history outlives the shell. -/
  persist : Bool := true
  deriving DecidableEq, Repr

structure LoggingSettings where
  level : LogLevel := .warn
  timestamps : Bool := false
  deriving DecidableEq, Repr

structure Config where
  completion : CompletionSettings
  display : DisplaySettings
  history : HistorySettings
  logging : LoggingSettings
  deriving DecidableEq, Repr

inductive ConfigError where
  | fileNotFound (path : String)
  | invalidFormat (detail : String)
  | invalidValue (field value : String)
  deriving DecidableEq, Repr

def ConfigError.message : ConfigError → String
  | fileNotFound path => "Config file not found: " ++ path
  | invalidFormat detail => "Invalid config format: " ++ detail
  | invalidValue field value => "Invalid value '" ++ value ++ "' for field '" ++ field ++ "'"

namespace Config

def historyFile (home : String) : String := Path.join home ".argshell_history"

def defaultPath (home : String) : String :=
  Path.join (Path.join home ".argshell") "config.toml"

/-- What applies where nothing is set. -/
def default (home : String) : Config where
  completion := {}
  display := {}
  history := { filePath := historyFile home }
  logging := {}

variable (c : Config)

/-- Whether a configuration can be used: no size may be zero, and a history that is kept needs a
file. The first fault counts. -/
def validate : Except ConfigError Unit :=
  if c.completion.maxItems = 0 then
    .error (.invalidValue "completion.max_completion_items" "0")
  else if c.history.maxSize = 0 then .error (.invalidValue "history.max_size" "0")
  else if c.history.persist && c.history.filePath.isEmpty then
    .error (.invalidValue "history.file_path" "")
  else .ok ()

end Config

end TabCompletion
