import TabCompletion.Toml.Basic

/-!
# The tokens of a TOML document

`Toml.tokens` reads a document character by character. A token is a mark, a text in quotes, a run of
other characters, white space, or the end of a line; comments leave no token.
-/

namespace TabCompletion.Toml

inductive Token where
  | lineEnd
  /-- White space within a line; whether it is a single space. -/
  | blank (single : Bool)
  /-- One of the characters `[`, `]`, `{`, `}`, `,`, `=` and `.`. -/
  | mark (c : Char)
  /-- A text in quotes; whether it may go over several lines. -/
  | quoted (long : Bool) (text : String)
  /-- A run of other characters. -/
  | bare (text : List Char)
  deriving DecidableEq, Repr

/-- Where a reader stands. The characters of an unfinished token are kept in reverse. -/
inductive Place where
  /-- Between two tokens. -/
  | ground
  /-- In white space, which is a single space so far or not. -/
  | blank (single : Bool)
  /-- In a run of other characters. -/
  | bare (read : List Char)
  /-- In a comment. -/
  | comment
  /-- After a carriage return, outside texts. -/
  | lineReturn
  /-- After the first quote of a text. -/
  | quote (q : Char)
  /-- After two quotes: an empty text, unless a third follows. -/
  | twoQuotes (q : Char)
  /-- At the start of a long text, where a line feed is left out. -/
  | opened (q : Char)
  /-- After a carriage return at the start of a long text. -/
  | openedReturn (q : Char)
  /-- In a text; for a long one, how many quotes came last. -/
  | text (q : Char) (long : Bool) (read : List Char) (quotes : Nat)
  /-- After a carriage return in a long text. -/
  | textReturn (q : Char) (read : List Char)
  /-- After a backslash. -/
  | escape (long : Bool) (read : List Char)
  /-- In the digits of a character code. -/
  | code (long : Bool) (read : List Char) (left : Nat) (value : Nat)
  /-- In the white space after a backslash at the end of a line; whether the line has ended. -/
  | joined (read : List Char) (crossed : Bool)
  /-- After a carriage return in such white space. -/
  | joinedReturn (read : List Char)
  deriving DecidableEq, Repr

/-- The place after a character and the tokens it completes; none where it may not stand. -/
abbrev Step := Option (Place × List Token)

def isMark (c : Char) : Bool :=
  c == '[' || c == ']' || c == '\x7b' || c == '\x7d' || c == ',' || c == '=' || c == '.'

/-- Whether a character is a control character that may not stand in a text or a comment. -/
def isForbidden (c : Char) : Bool := (c.toNat < 0x20 && c != '\t') || c.toNat == 0x7F

def groundStep (c : Char) : Step :=
  if c = ' ' then some (.blank true, [])
  else if c = '\t' then some (.blank false, [])
  else if c = '\n' then some (.ground, [.lineEnd])
  else if c = '\r' then some (.lineReturn, [])
  else if c = '#' then some (.comment, [])
  else if c = '"' || c = '\'' then some (.quote c, [])
  else if isMark c then some (.ground, [.mark c])
  else some (.bare [c], [])

/-- Complete a token and read the character after it. -/
def closing (t : Token) (c : Char) : Step :=
  (groundStep c).map fun (p, ts) => (p, t :: ts)

def endsBare (c : Char) : Bool :=
  c == ' ' || c == '\t' || c == '\n' || c == '\r' || c == '#' || c == '"' || c == '\'' || isMark c

/-- Read a character of a text that is neither a quote that closes it nor held back. -/
def textStep (q : Char) (long : Bool) (read : List Char) (c : Char) : Step :=
  if c = '\\' && q = '"' then some (.escape long read, [])
  else if long && c = '\n' then some (.text q long ('\n' :: read) 0, [])
  else if long && c = '\r' then some (.textReturn q read, [])
  else if isForbidden c then none
  else some (.text q long (c :: read) 0, [])

def shortStep (q : Char) (read : List Char) (c : Char) : Step :=
  if c = q then some (.ground, [.quoted false (String.ofList read.reverse)])
  else textStep q false read c

/-- A long text whose closing quotes are followed by something else, or as many as there may be:
quotes beyond three belong to the text. -/
def longText (q : Char) (read : List Char) (quotes : Nat) : Token :=
  .quoted true (String.ofList (List.replicate (quotes - 3) q ++ read).reverse)

/-- Read a character of a long text after `quotes` quotes. -/
def longStep (q : Char) (read : List Char) (quotes : Nat) (c : Char) : Step :=
  if c = q then
    -- At most two quotes of the text stand before the three that close it.
    if quotes = 4 then some (.ground, [longText q read 5])
    else some (.text q true read (quotes + 1), [])
  else if 3 ≤ quotes then closing (longText q read quotes) c
  else textStep q true (List.replicate quotes q ++ read) c

def escaped? (c : Char) : Option Char :=
  match c with
  | 'b' => some '\x08'
  | 't' => some '\t'
  | 'n' => some '\n'
  | 'f' => some '\x0c'
  | 'r' => some '\r'
  | 'e' => some '\x1b'
  | '"' => some '"'
  | '\\' => some '\\'
  | _ => none

def codeLength? (c : Char) : Option Nat :=
  match c with
  | 'x' => some 2
  | 'u' => some 4
  | 'U' => some 8
  | _ => none

/-- Read white space after a backslash, or what follows it once the line has ended. -/
def joinedStep (read : List Char) (crossed : Bool) (c : Char) : Step :=
  if c = ' ' || c = '\t' then some (.joined read crossed, [])
  else if c = '\n' then some (.joined read true, [])
  else if c = '\r' then some (.joinedReturn read, [])
  else if crossed then longStep '"' read 0 c
  else none

def escapeStep (long : Bool) (read : List Char) (c : Char) : Step :=
  match escaped? c, codeLength? c with
  | some e, _ => some (.text '"' long (e :: read) 0, [])
  | none, some n => some (.code long read n 0, [])
  -- A long text may go on in the next line.
  | none, none => if long then joinedStep read false c else none

def hexDigit? (c : Char) : Option Nat :=
  if c.isDigit then some (c.toNat - '0'.toNat)
  else if 'a' ≤ c && c ≤ 'f' then some (c.toNat - 'a'.toNat + 10)
  else if 'A' ≤ c && c ≤ 'F' then some (c.toNat - 'A'.toNat + 10)
  else none

/-- Read a digit of a character code with `left` digits to come. -/
def codeStep (long : Bool) (read : List Char) (left value : Nat) (c : Char) : Step :=
  match hexDigit? c with
  | none => none
  | some d =>
    let value := 16 * value + d
    if 1 < left then some (.code long read (left - 1) value, [])
    else if value.isValidChar then some (.text '"' long (Char.ofNat value :: read) 0, [])
    else none

def Place.step (p : Place) (c : Char) : Step :=
  match p with
  | ground => groundStep c
  | blank single =>
    if c = ' ' || c = '\t' then some (blank false, []) else closing (.blank single) c
  | bare read =>
    if endsBare c then closing (.bare read.reverse) c else some (bare (c :: read), [])
  | comment =>
    if c = '\n' || c = '\r' then groundStep c
    else if isForbidden c then none
    else some (comment, [])
  | lineReturn => if c = '\n' then some (ground, [.lineEnd]) else none
  | quote q => if c = q then some (twoQuotes q, []) else shortStep q [] c
  | twoQuotes q => if c = q then some (opened q, []) else closing (.quoted false "") c
  | opened q =>
    if c = '\n' then some (text q true [] 0, [])
    else if c = '\r' then some (openedReturn q, [])
    else longStep q [] 0 c
  | openedReturn q => if c = '\n' then some (text q true [] 0, []) else none
  | text q long read quotes => if long then longStep q read quotes c else shortStep q read c
  | textReturn q read => if c = '\n' then some (text q true ('\n' :: read) 0, []) else none
  | escape long read => escapeStep long read c
  | code long read left value => codeStep long read left value c
  | joined read crossed => joinedStep read crossed c
  | joinedReturn read => if c = '\n' then some (joined read true, []) else none

/-- The tokens that the end of the document completes; none where it may not end. -/
def Place.finish : Place → Option (List Token)
  | ground => some []
  | blank single => some [.blank single]
  | bare read => some [.bare read.reverse]
  | comment => some []
  | twoQuotes _ => some [.quoted false ""]
  | text q true read quotes => if 3 ≤ quotes then some [longText q read quotes] else none
  | _ => none

def tokensFrom (p : Place) : List Char → Option (List Token)
  | [] => p.finish
  | c :: cs =>
    match p.step c with
    | none => none
    | some (p, ts) => (tokensFrom p cs).map (ts ++ ·)

/-- The tokens of a document. A byte order mark before it is passed over. -/
def tokens : List Char → Option (List Token)
  | '\uFEFF' :: cs => tokensFrom .ground cs
  | cs => tokensFrom .ground cs

end TabCompletion.Toml
