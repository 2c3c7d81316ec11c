import TabCompletion.Text.Blank

/-!
# Quoting a value so that it reads as one word

`quote` writes a text in chunks, each bare, in single quotes or in double quotes: the first of
these styles that all characters of the chunk allow. A chunk is as long as some style allows. A
caret always begins a chunk, in single quotes.
-/

namespace TabCompletion.Line

/-- The styles that a chunk may still be written in. -/
structure Styles where
  bare : Bool
  single : Bool
  double : Bool
  deriving DecidableEq, Repr

namespace Styles

def bareOk (c : Char) : Bool :=
  c.isAlphanum || c == '+' || c == '-' || c == '.' || c == '/' || c == ':' || c == '@' ||
    c == ']' || c == '_'

def singleOk (c : Char) : Bool := c != '\'' && c != '^' && c != '\\'

/-- Characters that may stand within double quotes, escaped or not. -/
def doubleOk (c : Char) : Bool := c != '`' && c != '$' && c != '!' && c != '^'

def restrict (s : Styles) (c : Char) : Styles :=
  ⟨s.bare && bareOk c, s.single && singleOk c, s.double && doubleOk c⟩

/-- The styles of a chunk that begins with this character. -/
def opening (c : Char) : Styles :=
  if c = '^' then ⟨false, true, false⟩ else restrict ⟨true, true, true⟩ c

def isEmpty (s : Styles) : Bool := !s.bare && !s.single && !s.double

end Styles

def escapeDouble (c : Char) : List Char :=
  if c == '$' || c == '`' || c == '"' || c == '\\' then ['\\', c] else [c]

/-- Write a chunk in the first style that is left. -/
def writeChunk (s : Styles) (chunk : List Char) : List Char :=
  if s.bare then chunk
  else if s.single then '\'' :: chunk ++ ['\'']
  else '"' :: chunk.flatMap escapeDouble ++ ['"']

/-- Write the rest of a text; `chunk` holds the present chunk in reverse. -/
def quoteFrom (chunk : List Char) (s : Styles) : List Char → List Char
  | [] => writeChunk s chunk.reverse
  | c :: cs =>
    let t := s.restrict c
    -- No style is left for the chunk with `c`, so `c` begins another one.
    if t.isEmpty then writeChunk s chunk.reverse ++ quoteFrom [c] (.opening c) cs
    else quoteFrom (c :: chunk) t cs

/-- Write a text so that a shell reads it as one word. -/
def quote : List Char → List Char
  | [] => ['\'', '\'']
  | c :: cs => quoteFrom [c] (.opening c) cs

/-- A candidate as it is inserted into a line: quoted if it contains white space. -/
def quoteCandidate (value : String) : String :=
  let cs := value.toList
  -- A text with a null character cannot be quoted.
  if cs.any Text.isBlank && !cs.contains '\x00' then String.ofList (quote cs) else value

end TabCompletion.Line
