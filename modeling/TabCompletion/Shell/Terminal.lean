import TabCompletion.Completion.Host

/-!
# Messages on a terminal

A `Terminal` prints messages. While a line editor owns the screen, messages go to its queue instead,
which the editor empties above the prompt; a full queue sends them to the screen after all.
-/

namespace TabCompletion

/-- A terminal: whether errors are red, the queue of the line editor if there is one, and what was
written to the screen. -/
structure Terminal where
  color : Bool
  queue : Option (List String) := none
  screen : String := ""
  deriving DecidableEq, Repr

namespace Terminal

def queueCapacity : Nat := 20

/-- The text of a message as it is written: errors in red, if colors are wanted. -/
def paint (color : Bool) (kind : MessageKind) (text : String) : String :=
  if color && kind == .error then "\x1b[31m" ++ text ++ "\x1b[0m" else text

def trimLineFeeds (text : String) : String :=
  let cs := text.toList.dropWhile (· == '\n')
  String.ofList (cs.reverse.dropWhile (· == '\n')).reverse

/-- Print a message. In the queue it stands without the line feeds around it. -/
def print (t : Terminal) (m : Message) : Terminal :=
  match t.queue with
  | some q =>
    if q.length < queueCapacity then
      { t with queue := some (q ++ [paint t.color m.kind (trimLineFeeds m.text)]) }
    else { t with screen := t.screen ++ paint t.color m.kind m.text }
  | none => { t with screen := t.screen ++ paint t.color m.kind m.text }

def printAll (t : Terminal) (ms : List Message) : Terminal := ms.foldl print t

end Terminal

end TabCompletion
