import TabCompletion.Text.Blank

/-!
# Writing texts in TOML

A text is written in the plainest way that fits: in double quotes if nothing needs an escape, else
in single quotes, else over several lines in either, and only then with escapes.
-/

namespace TabCompletion.Toml

/-- What a text asks of the way it is written. -/
structure Demands where
  /-- Whether there are control characters other than tabs and line feeds. -/
  controls : Bool
  backslash : Bool
  lineFeed : Bool
  /-- The longest run of double quotes. -/
  doubleQuotes : Nat
  /-- The longest run of single quotes. -/
  singleQuotes : Nat
  deriving DecidableEq, Repr

/-- The longest run of a character; `run` and `best` are the present run and the longest so far. -/
def longestRun (q : Char) (run best : Nat) : List Char → Nat
  | [] => max run best
  | c :: cs => if c = q then longestRun q (run + 1) best cs else longestRun q 0 (max run best) cs

/-- Whether a character can only be written by an escape. -/
def needsEscape (c : Char) : Bool :=
  (c.toNat < 0x20 && c != '\t' && c != '\n') || c.toNat == 0x7F

def Demands.of (cs : List Char) : Demands where
  controls := cs.any needsEscape
  backslash := cs.contains '\\'
  lineFeed := cs.contains '\n'
  doubleQuotes := longestRun '"' 0 0 cs
  singleQuotes := longestRun '\'' 0 0 cs

inductive Style where
  | basic
  | literal
  | longBasic
  | longLiteral
  deriving DecidableEq, Repr

def Demands.style (d : Demands) : Style :=
  if !d.controls && !d.backslash && !d.lineFeed && d.doubleQuotes = 0 then .basic
  else if !d.controls && d.singleQuotes = 0 && !d.lineFeed then .literal
  else if !d.controls && !d.backslash && d.doubleQuotes ≤ 2 then .longBasic
  else if !d.controls && d.singleQuotes ≤ 2 then .longLiteral
  else if d.lineFeed then .longBasic
  else .basic

/-- A character code in four hexadecimal digits. -/
def hexCode (n : Nat) : List Char :=
  let ds := (Nat.toDigits 16 n).map Char.toUpper
  List.replicate (4 - ds.length) '0' ++ ds

def escape (long : Bool) (c : Char) : List Char :=
  if c = '\x08' then ['\\', 'b']
  else if c = '\t' then ['\\', 't']
  else if c = '\n' then (if long then ['\n'] else ['\\', 'n'])
  else if c = '\x0c' then ['\\', 'f']
  else if c = '\r' then ['\\', 'r']
  else if c = '\\' then ['\\', '\\']
  else if needsEscape c then '\\' :: 'u' :: hexCode c.toNat
  else [c]

/-- The characters of a text within double quotes. As many double quotes as `allowed` may stand in a
row without escape; `quotes` came last. -/
def escapeFrom (long : Bool) (allowed quotes : Nat) : List Char → List Char
  | [] => []
  | '"' :: cs =>
    if quotes < allowed then '"' :: escapeFrom long allowed (quotes + 1) cs
    else '\\' :: '"' :: escapeFrom long allowed 0 cs
  | c :: cs => escape long c ++ escapeFrom long allowed 0 cs

/-- A text as it is written. -/
def writeText (s : String) : String :=
  let cs := s.toList
  let d := Demands.of cs
  -- A line feed right after the opening quotes is not read as part of a long text.
  let lead := if d.lineFeed then ['\n'] else []
  String.ofList <| match d.style with
    | .basic => '"' :: escapeFrom false 0 0 cs ++ ['"']
    | .literal => '\'' :: cs ++ ['\'']
    | .longBasic => ['"', '"', '"'] ++ lead ++ escapeFrom true 2 0 cs ++ ['"', '"', '"']
    | .longLiteral => ['\'', '\'', '\''] ++ lead ++ cs ++ ['\'', '\'', '\'']

end TabCompletion.Toml
