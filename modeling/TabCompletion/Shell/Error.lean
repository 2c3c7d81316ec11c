import TabCompletion.Config.Basic
import TabCompletion.FileTree
import TabCompletion.Grammar.Error

/-!
# What can go wrong in a shell
-/

namespace TabCompletion

inductive ShellError where
  | config (e : ConfigError)
  | schema (e : GrammarError)
  | file (e : FileError)
  /-- A failure of the line editor. -/
  | readline (message : String)
  | generic (message : String)
  deriving DecidableEq, Repr

def ShellError.message : ShellError → String
  | config e => "Configuration error: " ++ e.message
  | schema e => "Schema error: " ++ e.message
  | file e => "I/O error: " ++ e.message
  | readline message => "Readline error: " ++ message
  | generic message => message

end TabCompletion
