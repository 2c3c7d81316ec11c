import TabCompletion.Choice
import TabCompletion.FileTree
import TabCompletion.Sorting

/-!
# Completing paths

A path is completed by the members of the directory that it names so far. Their names are ordered,
hidden ones are offered only if a dot was typed, and directories end in a separator, so that
completing them again goes on to their members.
-/

namespace TabCompletion

/-- A path that is being typed: the directory as typed, up to the last separator, and the
beginning of a name. -/
structure PartialPath where
  directory : String
  name : String
  deriving DecidableEq, Repr

namespace PartialPath

/-- Divide a typed text after its last separator. -/
def ofText (text : String) : PartialPath :=
  let reversed := text.toList.reverse
  { directory := String.ofList (reversed.dropWhile (· != Path.separator)).reverse
    name := String.ofList (reversed.takeWhile (· != Path.separator)).reverse }

variable (p : PartialPath)

def isHidden (name : String) : Bool := name.toList.head? == some '.'

def offers (e : DirectoryEntry) : Bool :=
  Text.beginsWith e.name p.name && (!isHidden e.name || isHidden p.name)

def pathOf (e : DirectoryEntry) : String :=
  p.directory ++ e.name ++ (if e.isDirectory then String.singleton Path.separator else "")

def complete (entries : List DirectoryEntry) : List String :=
  Sorting.stableSortByText String.toList ((entries.filter p.offers).map p.pathOf)

/-- The path of the directory, seen from `base` unless it is absolute. -/
def directoryFrom (base : String) : String :=
  if p.directory.isEmpty then base else Path.join base p.directory

end PartialPath

/-- Complete a path that is typed by someone who is at `base`. -/
def FileTree.completePath (t : FileTree) (base text : String) :
    Except SourceFailure (List String) :=
  let p := PartialPath.ofText text
  let directory := p.directoryFrom base
  match t.list directory with
  | .error e => .error ⟨"cannot read " ++ directory ++ ": " ++ e.message⟩
  | .ok entries => .ok (p.complete entries)

def FileTree.pathSource (t : FileTree) : ChoiceSource :=
  .completer false fun request _ =>
    (t.completePath "." request.text).map fun paths => paths.map .ofText

end TabCompletion
