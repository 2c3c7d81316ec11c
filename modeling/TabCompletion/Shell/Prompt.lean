/-!
# The prompt
-/

namespace TabCompletion

/-- A prompt with a fixed text. -/
structure Prompt where
  text : String
  deriving DecidableEq, Repr

namespace Prompt

def left (p : Prompt) : String := p.text

def right (_ : Prompt) : String := ""

/-- The editing mode's mark: nothing, as the text is the whole prompt. -/
def indicator (_ : Prompt) : String := ""

def multiline (_ : Prompt) : String := "... "

/-- What stands before the line while the history is searched for a term. -/
def search (_ : Prompt) (failing : Bool) (term : String) : String :=
  "(" ++ (if failing then "failing " else "") ++ "reverse-search: " ++ term ++ ") "

end Prompt

end TabCompletion
