import TabCompletion.Arity
import TabCompletion.Choice
import TabCompletion.Text.Blank

/-!
# Why a completion request ends early
-/

namespace TabCompletion

/-- The conditions that end a completion request without candidates. -/
inductive Interruption where
  /-- A flag has too few values where another word must begin. -/
  | unfinishedArgument (name : String) (arity : Arity) (entered : Nat)
  /-- A second member of an exclusive group was given. -/
  | mutexConflict (name other : String)
  /-- A word stands where a subcommand is expected and names none. -/
  | unknownSubcommand (word : String)
  /-- A choice source failed. -/
  | choiceSource (name : String) (failure : SourceFailure)
  deriving DecidableEq, Repr

namespace Interruption

/-- Whether the user is told. -/
def isReported : Interruption → Bool
  -- The name is most likely still being typed.
  | unknownSubcommand _ => false
  | _ => true

/-- The lines of a source's message, indented unless they are blank. -/
def indentLines (message : String) : String :=
  let indent (l : List Char) : String :=
    if l.all Text.isBlank then String.ofList l else "  " ++ String.ofList l
  "\n".intercalate ((Text.lines message.toList).map indent)

def message : Interruption → String
  | unfinishedArgument name arity entered =>
    "Error: argument " ++ name ++ ": " ++ arity.expectation ++ " (" ++ toString entered ++
      " entered)"
  | mutexConflict name other =>
    "Error: argument " ++ name ++ ": not allowed with argument " ++ other
  | unknownSubcommand word => "Unknown subcommand: " ++ word
  | choiceSource name failure =>
    "Error tab completing " ++ name ++ ":\n" ++ indentLines failure.message

end Interruption

end TabCompletion
