import TabCompletion.Completion.Resolve

/-!
# Help on subcommands

`completeHelpTopic` completes the name of a subcommand in a request for help, `helpOn` gives the
help page that such a request names. Both follow the words from subcommand to subcommand.
-/

namespace TabCompletion.Grammar

/-- The subcommand names for the last word, once the words before it were followed. -/
def helpTopicsFrom (text : String) (g : Grammar) : List String → List String
  | [] => []
  | word :: rest =>
    match g.subcommand? word with
    -- The last word is followed like those before it if it is a name in full.
    | some child => helpTopicsFrom text child rest
    | none => if rest.isEmpty then beginningWith text g.subcommandNames else []

/-- Complete the last of the words, which begin with the command's name, as a subcommand to get
help on. -/
def completeHelpTopic (g : Grammar) (words : List String) (text : String) : List String :=
  helpTopicsFrom text g ((normalizeWords words text).drop 1)

/-- The help page of the last subcommand that can be reached through the words. -/
def helpFrom (g : Grammar) : List String → String
  | [] => g.helpPage
  | word :: rest =>
    match g.subcommand? word with
    | some child => helpFrom child rest
    | none => g.helpPage

/-- The help page that words name, which begin with the command's name. -/
def helpOn (g : Grammar) (words : List String) : String := g.helpFrom (words.drop 1)

end TabCompletion.Grammar
