import TabCompletion.Config.Basic
import TabCompletion.Text.Case

/-!
# The shells that the program can be completed in
-/

namespace TabCompletion

/-- A shell that there is a completion script for. -/
inductive ScriptShell where
  | bash
  | zsh
  | fish
  | powershell
  | elvish
  deriving DecidableEq, Repr

namespace ScriptShell

def names : List (String × ScriptShell) :=
  [ ("bash", bash), ("zsh", zsh), ("fish", fish), ("powershell", powershell),
    ("pwsh", powershell), ("elvish", elvish) ]

/-- The shell of a name, in whatever case it is written. -/
def ofName (name : String) : Except ConfigError ScriptShell :=
  match names.lookup (String.ofList (Text.lowercase name)) with
  | some shell => .ok shell
  | none => .error (.invalidValue "shell" name)

end ScriptShell

end TabCompletion
