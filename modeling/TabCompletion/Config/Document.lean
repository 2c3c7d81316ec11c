import TabCompletion.Config.Basic
import TabCompletion.Toml.Document
import TabCompletion.Toml.Fields
import TabCompletion.Toml.Written

/-!
# Configurations in TOML documents

A document has a table for each group of settings; what it leaves out keeps its default.
`Config.render` writes a configuration out in full.
-/

namespace TabCompletion

open Toml (Reader withDefault asText asFlag asCount asRecord)

namespace Config

/-! ### Reading -/

def levelNamed (place name : String) : Except TomlFault LogLevel :=
  match LogLevel.ofName? name with
  | some level => .ok level
  | none => .error (.unexpected place)

/-- A log level: its name, or a table with its name and nothing else. -/
def asLevel : Reader LogLevel
  | place, .string s => levelNamed place s
  | place, .table _ [(key, .table _ [])] => levelNamed place key
  | place, .table _ [(key, .array _ [])] => levelNamed place key
  | place, _ => .error (.unexpected place)

def asCompletion (base : CompletionSettings) : Reader CompletionSettings := fun place v => do
  let fields ← asRecord ["max_completion_items", "descriptive_header", "hints"] place v
  return { maxItems := ← withDefault asCount "max_completion_items" base.maxItems fields
           descriptiveHeader := ←
             withDefault asText "descriptive_header" base.descriptiveHeader fields
           hints := ← withDefault asFlag "hints" base.hints fields }

def asDisplay (base : DisplaySettings) : Reader DisplaySettings := fun place v => do
  let fields ← asRecord ["color_output", "prompt"] place v
  return { color := ← withDefault asFlag "color_output" base.color fields
           prompt := ← withDefault asText "prompt" base.prompt fields }

def asHistory (base : HistorySettings) : Reader HistorySettings := fun place v => do
  let fields ← asRecord ["max_size", "file_path", "persist"] place v
  return { maxSize := ← withDefault asCount "max_size" base.maxSize fields
           filePath := ← withDefault asText "file_path" base.filePath fields
           persist := ← withDefault asFlag "persist" base.persist fields }

def asLogging (base : LoggingSettings) : Reader LoggingSettings := fun place v => do
  let fields ← asRecord ["level", "timestamps"] place v
  return { level := ← withDefault asLevel "level" base.level fields
           timestamps := ← withDefault asFlag "timestamps" base.timestamps fields }

/-- The configuration of a document; `base` says what applies where nothing is set. -/
def ofEntries (base : Config) (entries : TomlEntries) : Except TomlFault Config := do
  let completion ←
    withDefault (asCompletion base.completion) "completion" base.completion entries
  let display ← withDefault (asDisplay base.display) "display" base.display entries
  let history ← withDefault (asHistory base.history) "history" base.history entries
  let logging ← withDefault (asLogging base.logging) "logging" base.logging entries
  return { completion, display, history, logging }

/-- The configuration that a document gives the user of a home directory. -/
def ofText (home text : String) : Except ConfigError Config :=
  match (Toml.ofText text).bind (ofEntries (default home)) with
  | .ok c => .ok c
  | .error fault => .error (.invalidFormat fault.message)

/-! ### Writing -/

def renderFlag (b : Bool) : String := if b then "true" else "false"

def renderTable (name : String) (fields : List (String × String)) : String :=
  "[" ++ name ++ "]\n" ++ String.join (fields.map fun (key, v) => key ++ " = " ++ v ++ "\n")

def render (c : Config) : String :=
  "\n".intercalate
    [ renderTable "completion"
        [ ("max_completion_items", toString c.completion.maxItems),
          ("descriptive_header", Toml.writeText c.completion.descriptiveHeader),
          ("hints", renderFlag c.completion.hints) ],
      renderTable "display"
        [ ("color_output", renderFlag c.display.color),
          ("prompt", Toml.writeText c.display.prompt) ],
      renderTable "history"
        [ ("max_size", toString c.history.maxSize),
          ("file_path", Toml.writeText c.history.filePath),
          ("persist", renderFlag c.history.persist) ],
      renderTable "logging"
        [ ("level", Toml.writeText c.logging.level.name),
          ("timestamps", renderFlag c.logging.timestamps) ] ]

end Config

end TabCompletion
