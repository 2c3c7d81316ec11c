import TabCompletion.Completion.HelpTopics
import TabCompletion.Grammar.Error
import TabCompletion.Line.Fragment
import TabCompletion.Line.Quoted

/-!
# The commands of a shell

A `CommandSet` holds commands in the order of their registration, beside the built-in `help`. It
completes the word under the cursor of an input line and gives help texts.
-/

namespace TabCompletion

def helpCommand : String := "help"

/-- The commands that a shell understands, each under its program name. -/
structure CommandSet where
  commands : List Grammar := []

/-- Candidates with the byte of the line that they replace from. -/
structure LineCompletion where
  start : Nat
  completions : Completions
  deriving DecidableEq, Repr

namespace CommandSet

variable (set : CommandSet)

def get? (name : String) : Option Grammar := set.commands.find? (·.prog == name)

def names : List String := set.commands.map (·.prog)

/-- Register a command. Its name may be neither taken nor the built-in one. -/
def insert (g : Grammar) : Except GrammarError CommandSet :=
  if g.prog == helpCommand || (set.get? g.prog).isSome then .error (.duplicateSubcommand g.prog)
  else .ok { commands := set.commands ++ [g] }

def insertAll (set : CommandSet) : List Grammar → Except GrammarError CommandSet
  | [] => .ok set
  | g :: gs =>
    match set.insert g with
    | .error e => .error e
    | .ok set => insertAll set gs

def ofGrammars (gs : List Grammar) : Except GrammarError CommandSet := insertAll {} gs

/-! ### Completion -/

/-- Complete the topic of the built-in command: a command name, then its subcommands. -/
def completeHelp (words : List String) (text : String) : List String :=
  match words with
  | [] => []
  | [_] => beginningWith text set.names
  | command :: _ =>
    match set.get? command with
    | some g => g.completeHelpTopic words text
    | none => []

/-- The candidates for the last of the words, and the message to show where there are none. -/
def completeWords (host : Host) (words : List String) (request : CompletionRequest) :
    Completions × Option Message :=
  match words with
  | command :: topic :: rest =>
    if command = helpCommand then
      (.ofValues (set.completeHelp (topic :: rest) request.text), none)
    else
      match set.get? command with
      | some g => g.resolve host .empty words request
      | none => ({}, none)
  -- The command's name itself is completed.
  | _ => (.ofValues (beginningWith request.text (set.names ++ [helpCommand])), none)

/-- The text of a line before the byte `pos`; all of it where no character ends there. -/
def headOf (line : String) (pos : Nat) : String :=
  ((Text.takeBytes? pos line.toList).map String.ofList).getD line

/-- Complete the word that ends at the byte `pos` of a line. -/
def complete (host : Host) (line : String) (pos : Nat) : LineCompletion × Option Message :=
  let head := headOf line pos
  let split := Line.splitForCompletion head
  let request : CompletionRequest :=
    { text := split.text
      line
      begidx := split.begidx
      endidx := Text.byteLength head.toList }
  let (found, message) := set.completeWords host split.words request
  let items := found.items.map fun i => { i with value := Line.quoteCandidate i.value }
  ({ start := split.begidx, completions := { found with items } }, message)

/-! ### Help -/

def listRow (width : Nat) (name description : String) : String :=
  "  " ++ name ++ Text.spaces (width - Text.columns name) ++ description ++ "\n"

/-- The listing of all commands, each with the first line of its description. -/
def listing : String :=
  let width := ((set.names ++ [helpCommand]).map Text.columns).foldl max 0 + 2
  let rows := set.commands.map fun g =>
    listRow width g.prog (Text.firstLine (g.description.getD ""))
  "Documented commands (use 'help <command>'):\n" ++ String.join rows ++
    listRow width helpCommand "List commands or show help for one"

/-- The help text for the words after `help`. -/
def helpText (words : List String) : String :=
  match words with
  | [] => set.listing
  | command :: _ =>
    match set.get? command with
    | some g => g.helpOn words
    | none => "No help on " ++ command

end CommandSet

end TabCompletion
