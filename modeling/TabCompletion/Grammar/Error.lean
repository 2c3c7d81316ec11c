/-!
# What can be wrong with a command description
-/

namespace TabCompletion

/-- The reasons for which no grammar is built. -/
inductive GrammarError where
  /-- A flag spelling that does not begin with a prefix character. -/
  | invalidFlag (spelling : String)
  /-- A flag spelling that an earlier flag has. -/
  | duplicateFlag (spelling : String)
  /-- A positional whose destination begins with a prefix character. -/
  | invalidPositional (name : String)
  /-- Two flags with one destination of which one would overwrite the other's values. -/
  | destConflict (dest : String)
  /-- Two subcommands, or two commands, of one name. -/
  | duplicateSubcommand (name : String)
  /-- A range whose lower bound exceeds its upper one, or an unknown way to give a range. -/
  | invalidNargs (detail : String)
  /-- An action unknown, or not meant for a positional. -/
  | invalidAction (arg action : String)
  /-- A choice source that nobody registered. -/
  | unknownProvider (name : String)
  /-- A description that is not of the expected form. -/
  | invalidFormat (detail : String)
  deriving DecidableEq, Repr

def GrammarError.message : GrammarError → String
  | invalidFlag spelling => "Flag '" ++ spelling ++ "' must start with a prefix character"
  | duplicateFlag spelling => "Flag '" ++ spelling ++ "' declared twice"
  | invalidPositional name => "Positional argument '" ++ name ++ "' looks like a flag"
  | destConflict dest => "Destination '" ++ dest ++ "' is shared by non-reusable flags"
  | duplicateSubcommand name => "Subcommand '" ++ name ++ "' declared twice"
  | invalidNargs detail => "Invalid nargs: " ++ detail
  | invalidAction arg action =>
    "Action '" ++ action ++ "' is not valid for positional '" ++ arg ++ "'"
  | unknownProvider name => "Unknown choice provider: " ++ name
  | invalidFormat detail => "Invalid schema format: " ++ detail

end TabCompletion
