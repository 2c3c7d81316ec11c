import TabCompletion.Text.Blank

/-!
# Files and directories

A `FileTree` is a state of the file system as far as it matters: which directories and files there
are, and what the files hold. Paths are texts; a relative one is followed from the working
directory. What cannot be done fails for the reason, and with the text, that a Unix system gives.
-/

namespace TabCompletion

inductive FileError where
  | notFound
  | alreadyExists
  | notDirectory
  | isDirectory
  | nameTooLong
  /-- A path with a null character in it. -/
  | nullInPath
  deriving DecidableEq, Repr

def FileError.message : FileError → String
  | notFound => "No such file or directory (os error 2)"
  | alreadyExists => "File exists (os error 17)"
  | notDirectory => "Not a directory (os error 20)"
  | isDirectory => "Is a directory (os error 21)"
  | nameTooLong => "File name too long (os error 36)"
  | nullInPath => "file name contained an unexpected NUL byte"

inductive FileNode where
  | directory
  | file (text : String)
  deriving DecidableEq, Repr

/-- The names that lead from the root to a file or directory. -/
abbrev Location := List String

structure DirectoryEntry where
  name : String
  isDirectory : Bool
  deriving DecidableEq, Repr

/-- The files and directories at their locations. The root is always a directory. -/
structure FileTree where
  workingDirectory : Location := []
  nodes : List (Location × FileNode) := []
  deriving DecidableEq, Repr

/-! ### Paths -/

namespace Path

def separator : Char := '/'

/-- The pieces of a path between separators. -/
def pieces : List Char → List (List Char)
  | [] => [[]]
  | c :: cs =>
    if c = separator then [] :: pieces cs
    else
      match pieces cs with
      | [] => [[c]]
      | p :: ps => (c :: p) :: ps

/-- The names of a path, with an empty one where separators meet or stand at an end. -/
def names (path : String) : List String := (pieces path.toList).map String.ofList

def isAbsolute (path : String) : Bool := path.toList.head? == some separator

/-- The names of a path that lead somewhere else than to where one is. -/
def properNames (path : String) : List String :=
  (names path).filter fun n => n != "" && n != "."

/-- The path that leads along `path` from the directory that `base` leads to. -/
def join (base path : String) : String :=
  if isAbsolute path || base.isEmpty then path
  else if base.toList.getLast? == some separator then base ++ path
  else base ++ String.singleton separator ++ path

end Path

namespace FileTree

variable (t : FileTree)

/-! ### Finding -/

def node? (l : Location) : Option FileNode :=
  if l.isEmpty then some .directory else t.nodes.lookup l

def maxNameLength : Nat := 255

def walk (here : Location) : List String → Except FileError Location
  | [] => .ok here
  | name :: names =>
    -- A file has nothing beneath it, not even itself under an empty name.
    if t.node? here != some .directory then .error .notDirectory
    else if name = "" || name = "." then walk here names
    else if name = ".." then walk here.dropLast names
    else if maxNameLength < Text.byteLength name.toList then .error .nameTooLong
    else if (t.node? (here ++ [name])).isSome then walk (here ++ [name]) names
    else .error .notFound

def startOf (path : String) : Location := if Path.isAbsolute path then [] else t.workingDirectory

def locate (path : String) : Except FileError Location :=
  if path.toList.contains '\x00' then .error .nullInPath
  else if path.isEmpty then .error .notFound
  else t.walk (t.startOf path) (Path.names path)

def contains (path : String) : Bool := (t.locate path).isOk

def read (path : String) : Except FileError String :=
  match t.locate path with
  | .error e => .error e
  | .ok l =>
    match t.node? l with
    | some (.file text) => .ok text
    | some .directory => .error .isDirectory
    | none => .error .notFound

/-- The member of the directory at `l` that a node is, if it is one. -/
def entryIn (l : Location) (n : Location × FileNode) : Option DirectoryEntry :=
  match n.1.getLast? with
  | some name =>
    if n.1 = l ++ [name] then some ⟨name, n.2 == .directory⟩ else none
  | none => none

def list (path : String) : Except FileError (List DirectoryEntry) :=
  match t.locate path with
  | .error e => .error e
  | .ok l =>
    match t.node? l with
    | some .directory => .ok (t.nodes.filterMap (entryIn l))
    | some (.file _) => .error .notDirectory
    | none => .error .notFound

/-! ### Changing -/

/-- Put a file or directory at a location, in place of what is there. -/
def put (l : Location) (n : FileNode) : FileTree :=
  { t with nodes := t.nodes.filter (·.1 != l) ++ [(l, n)] }

/-- The location of something new that names lead to: the last name is free, the others lead to a
directory. -/
def vacancy (start : Location) (names : List String) : Except FileError Location :=
  match names.getLast?, t.walk start names with
  | none, _ => .error .notFound
  | some _, .ok _ => .error .alreadyExists
  | some name, .error .notFound => (t.walk start names.dropLast).map fun l => l ++ [name]
  | some _, .error e => .error e

/-- Make a directory with all directories on the way to it; the names are given in reverse. -/
def makeDirectories (start : Location) : List String → Except FileError FileTree
  | [] => .ok t
  | name :: outer =>
    let names := (name :: outer).reverse
    match t.vacancy start names with
    | .ok l => .ok (t.put l .directory)
    -- A directory on the way is missing, and is made first.
    | .error .notFound =>
      match makeDirectories start outer with
      | .error e => .error e
      | .ok t =>
        match t.vacancy start names with
        | .ok l => .ok (t.put l .directory)
        | .error e => if (t.walk start (names ++ [""])).isOk then .ok t else .error e
    -- What is there already must be a directory: an empty name can be followed from it.
    | .error e => if (t.walk start (names ++ [""])).isOk then .ok t else .error e

/-- Write a file, which is made if it is not there. -/
def write (path text : String) : Except FileError FileTree :=
  match t.locate path with
  | .ok l =>
    match t.node? l with
    | some (.file _) => .ok (t.put l (.file text))
    | _ => .error .isDirectory
  | .error .notFound =>
    -- A path that ends in a separator means a directory, which cannot be written to.
    let names := Path.names path
    let trimmed := (names.reverse.dropWhile (·.isEmpty)).reverse
    match t.vacancy (t.startOf path) trimmed with
    | .error e => .error e
    | .ok l => if trimmed = names then .ok (t.put l (.file text)) else .error .isDirectory
  | .error e => .error e

/-- Write a file, and make the directories on the way to it. -/
def save (path text : String) : Except FileError FileTree :=
  if path.toList.contains '\x00' then .error .nullInPath
  else
    match t.makeDirectories (t.startOf path) (Path.properNames path).dropLast.reverse with
    | .error e => .error e
    | .ok t => t.write path text

/-! ### Building up -/

def plantFrom (n : FileNode) (t : FileTree) (here : Location) : List String → FileTree
  | [] => if here.isEmpty then t else t.put here n
  | name :: names =>
    if name = "" || name = "." then plantFrom n t here names
    else if name = ".." then plantFrom n t here.dropLast names
    else
      let next := here ++ [name]
      plantFrom n (if (t.node? next).isSome then t else t.put next .directory) next names

/-- Put a node where a path leads, and directories wherever it leads through. -/
def plant (path : String) (n : FileNode) : FileTree :=
  plantFrom n t (t.startOf path) (Path.names path)

/-- The tree with nothing but the way to a working directory. -/
def atDirectory (l : Location) : FileTree :=
  { workingDirectory := l
    nodes := (List.range l.length).map fun i => (l.take (i + 1), .directory) }

end FileTree

end TabCompletion
