/-!
# Splitting a line into words

`split` reads a line as a shell does: words are separated by spaces, tabs and line feeds; a number
sign at the start of a word begins a comment that runs to the end of the line; a backslash takes
the meaning from the next character, and quotes from all up to the closing one. A line that ends
within quotes or after a backslash has no words.
-/

namespace TabCompletion.Line

/-- Where in the line a reader stands. Within a word, the characters of the word read so far are
kept in reverse. -/
inductive Place where
  | between
  | comment
  /-- In a word, outside quotes. -/
  | word (read : List Char)
  /-- After a backslash outside quotes. -/
  | escaped (read : List Char)
  /-- Within single quotes. -/
  | single (read : List Char)
  /-- Within double quotes. -/
  | double (read : List Char)
  /-- After a backslash within double quotes. -/
  | doubleEscaped (read : List Char)
  deriving DecidableEq, Repr

def isSeparator (c : Char) : Bool := c == ' ' || c == '\t' || c == '\n'

/-- The characters that a backslash within double quotes takes the meaning from. -/
def isEscapable (c : Char) : Bool := c == '$' || c == '`' || c == '"' || c == '\\'

/-- Read a character of a word outside quotes. -/
def enter (read : List Char) (c : Char) : Place :=
  if c = '\'' then .single read
  else if c = '"' then .double read
  else if c = '\\' then .escaped read
  else .word (c :: read)

/-- Read one character: the place after it, and the word that it ends. -/
def Place.step (p : Place) (c : Char) : Place × Option (List Char) :=
  match p with
  | between =>
    if isSeparator c then (between, none)
    else if c = '#' then (comment, none)
    else (enter [] c, none)
  | comment => (if c = '\n' then between else comment, none)
  | word read => if isSeparator c then (between, some read.reverse) else (enter read c, none)
  -- A backslash and the line feed after it are both left out.
  | escaped read => (word (if c = '\n' then read else c :: read), none)
  | single read => (if c = '\'' then word read else single (c :: read), none)
  | double read =>
    (if c = '"' then word read else if c = '\\' then doubleEscaped read else double (c :: read),
      none)
  -- Before any other character a backslash within double quotes stands for itself.
  | doubleEscaped read =>
    (double (if c = '\n' then read else if isEscapable c then c :: read else c :: '\\' :: read),
      none)

/-- What the end of the line makes of a place: the word it ends, if any, or nothing if the line
cannot end there. -/
def Place.finish : Place → Option (List (List Char))
  | between => some []
  | comment => some []
  | word read => some [read.reverse]
  | _ => none

def splitFrom (p : Place) : List Char → Option (List (List Char))
  | [] => p.finish
  | c :: cs =>
    match p.step c with
    | (q, some w) => (splitFrom q cs).map (w :: ·)
    | (q, none) => splitFrom q cs

/-- The words of a line, if it ends outside quotes and not after a backslash. -/
def split (line : List Char) : Option (List (List Char)) := splitFrom .between line

end TabCompletion.Line
