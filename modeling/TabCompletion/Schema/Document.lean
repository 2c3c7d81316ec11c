import TabCompletion.Schema.Build
import TabCompletion.Toml.Document
import TabCompletion.Toml.Fields

/-!
# Schemas in TOML documents

A document lists commands under `commands`, arguments under `args`, subcommands under
`subcommands`, and settings of exclusive groups under `groups`. `Schema.load` reads a document and
builds its commands in their order.
-/

namespace TabCompletion.Schema

open Toml (Reader optional required withDefault asText asFlag asCount asList asTable asRecord)

/-! ### Arguments -/

/-- The number of values: a count, a symbol, or a list of bounds. -/
def asNargs : Reader Count
  | place, .integer i => (asCount place (.integer i)).map .fixed
  | _, .string s => .ok (.symbol s)
  | place, v => (asList asCount place v).map .bounds

/-- The least integer, `2^63`, that is too great to be a value to choose. -/
def signedLimit : Int := 9223372036854775808

/-- A value to choose. -/
def asValue : Reader ChoiceValue
  | place, .integer i =>
    if -signedLimit ≤ i && i < signedLimit then .ok (.int i)
    -- An integer that is only too great becomes a floating-point number.
    else if 0 ≤ i && i < Toml.countLimit then .ok (.float (.ofInt i))
    else .error (.unexpected place)
  | _, .float x => .ok (.float x)
  | _, .string s => .ok (.text s)
  | place, _ => .error (.unexpected place)

/-- A choice: a value alone, or a table of a value and its description. -/
def asChoice : Reader Choice
  | _, .table _ entries => do
    let value ← required asValue "value" entries
    let description ← required asText "description" entries
    return { value, description := some description }
  | place, v => (asValue place v).map fun value => { value }

def asArg : Reader Arg := fun place v => do
  let fields ← asRecord
    ["flags", "name", "dest", "action", "nargs", "choices", "provider", "help", "hidden",
      "metavar", "required", "group", "descriptive_header", "suppress_tab_hint"] place v
  return { flags := ← optional (asList asText) "flags" fields
           name := ← optional asText "name" fields
           dest := ← optional asText "dest" fields
           action := ← optional asText "action" fields
           nargs := ← optional asNargs "nargs" fields
           choices := ← optional (asList asChoice) "choices" fields
           provider := ← optional asText "provider" fields
           help := ← optional asText "help" fields
           hidden := ← withDefault asFlag "hidden" false fields
           metavar := ← optional asText "metavar" fields
           required := ← withDefault asFlag "required" false fields
           group := ← optional asText "group" fields
           descriptiveHeader := ← optional asText "descriptive_header" fields
           suppressTabHint := ← withDefault asFlag "suppress_tab_hint" false fields }

/-! ### Commands -/

/-- The settings of an exclusive group: whether a member is required. -/
def asGroup : Reader Bool := fun place v => do
  withDefault asFlag "required" false (← asRecord ["required"] place v)

def commandFields : List String :=
  ["name", "description", "epilog", "add_help", "allow_abbrev", "prefix_chars",
    "subcommand_dest", "subcommand_help", "subcommand_metavar", "args", "groups", "subcommands"]

def asOutline (fields : TomlEntries) : Except TomlFault Outline := do
  return { name := ← required asText "name" fields
           description := ← optional asText "description" fields
           epilog := ← optional asText "epilog" fields
           addHelp := ← withDefault asFlag "add_help" false fields
           allowAbbrev := ← withDefault asFlag "allow_abbrev" true fields
           prefixChars := ← withDefault asText "prefix_chars" "-" fields
           subcommandDest := ← optional asText "subcommand_dest" fields
           subcommandHelp := ← optional asText "subcommand_help" fields
           subcommandMetavar := ← optional asText "subcommand_metavar" fields
           args := ← withDefault (asList asArg) "args" [] fields
           groups := ← withDefault (asTable asGroup) "groups" [] fields }

/-- A command whose subcommands are nested at most `depth` deep. -/
def asCommand : Nat → Reader Command
  | 0, place, _ => .error (.unexpected place)
  | depth + 1, place, v => do
    let fields ← asRecord commandFields place v
    let outline ← asOutline fields
    let subcommands ← withDefault (asList (asCommand depth)) "subcommands" [] fields
    return { toOutline := outline, subcommands }

/-- The commands of a document. Subcommands are nested no deeper than the document's values. -/
def ofEntries (entries : TomlEntries) : Except TomlFault (List Command) :=
  let depth := (Toml.table .header entries).height
  withDefault (asList (asCommand depth)) "commands" [] entries

def ofText (text : String) : Except TomlFault (List Command) := do
  ofEntries (← Toml.ofText text)

/-- Read a document and build its commands in their order. -/
def load (sources : Sources) (text : String) : Except GrammarError (List Grammar) :=
  match ofText text with
  | .error fault => .error (.invalidFormat fault.message)
  | .ok commands => buildAll sources commands

end TabCompletion.Schema
