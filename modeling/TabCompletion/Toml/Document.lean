import TabCompletion.Toml.Entries
import TabCompletion.Toml.Scalar
import TabCompletion.Toml.Token

/-!
# Reading a TOML document

`Toml.ofText` gives the entries of a document, or the first thing wrong with it. A document is a
sequence of statements: headers, and keys with their values, which belong to the table of the last
header.
-/

namespace TabCompletion.Toml

/-! ### White space and keys -/

/-- Leave out white space within the line. -/
def skipBlanks : List Token → List Token
  | .blank _ :: ts => skipBlanks ts
  | ts => ts

def skipSpace : List Token → List Token
  | .blank _ :: ts => skipSpace ts
  | .lineEnd :: ts => skipSpace ts
  | ts => ts

def isKeyChar (c : Char) : Bool := c.isAlphanum || c == '-' || c == '_'

/-- Read a path of keys with points between them. `read` holds the keys so far in reverse,
`atKey` says whether a key comes next. -/
def keys (read : List String) (atKey : Bool) :
    List Token → Except TomlFault (List String × List Token)
  | [] => if atKey then .error .malformed else .ok (read, [])
  | .blank _ :: ts => keys read atKey ts
  | t :: ts =>
    if atKey then
      match t with
      | .bare cs => if cs.all isKeyChar then keys (String.ofList cs :: read) false ts
        else .error .malformed
      | .quoted false s => keys (s :: read) false ts
      | _ => .error .malformed
    else if t = .mark '.' then keys read true ts
    else .ok (read, t :: ts)

/-- Read a path of keys: those it leads through, and the last one. -/
def keyPath (ts : List Token) : Except TomlFault (List String × String × List Token) :=
  match keys [] true ts with
  | .ok (key :: path, ts) => .ok (path.reverse, key, ts)
  | .ok ([], _) => .error .malformed
  | .error e => .error e

/-! ### Values -/

def bareRun : List Token → List Char × List Token
  | .bare cs :: ts =>
    let (run, rest) := bareRun ts
    (cs ++ run, rest)
  | .mark '.' :: ts =>
    let (run, rest) := bareRun ts
    ('.' :: run, rest)
  | ts => ([], ts)

/-- The characters of a value without quotes. -/
def scalarRun (ts : List Token) : List Char × List Token :=
  let (run, rest) := bareRun ts
  match rest with
  -- A time of day may follow a date after one space.
  | .blank true :: after =>
    let (time, rest') := bareRun after
    if isDateLike run && time.head?.any Char.isDigit then (run ++ ' ' :: time, rest')
    else (run, rest)
  | _ => (run, rest)

def scalarValue (ts : List Token) : Except TomlFault (Toml × List Token) :=
  let (run, rest) := scalarRun ts
  match scalar? run with
  | some v => .ok (v, rest)
  | none => .error .malformed

def nestingLimit : Nat := 80

mutual

/-- Read a value that holds at most `depth` levels. Every level and every item takes of `fuel`,
for which twice the number of tokens suffices. -/
def valueFrom (fuel depth : Nat) (ts : List Token) : Except TomlFault (Toml × List Token) :=
  match fuel with
  | 0 => .error .malformed
  | fuel + 1 =>
    match depth, ts with
    | _, .quoted _ s :: ts => .ok (.string s, ts)
    | depth + 1, .mark '[' :: ts => itemsFrom fuel depth [] ts
    | depth + 1, .mark '\x7b' :: ts => entriesFrom fuel depth [] ts
    | _, ts => scalarValue ts

def itemsFrom (fuel depth : Nat) (read : List Toml) (ts : List Token) :
    Except TomlFault (Toml × List Token) :=
  match fuel with
  | 0 => .error .malformed
  | fuel + 1 =>
    match skipSpace ts with
    -- The last item may have a comma after it.
    | .mark ']' :: ts => .ok (.array false read.reverse, ts)
    | ts =>
      match valueFrom fuel depth ts with
      | .error e => .error e
      | .ok (v, ts) =>
        match skipSpace ts with
        | .mark ',' :: ts => itemsFrom fuel depth (v :: read) ts
        | .mark ']' :: ts => .ok (.array false (v :: read).reverse, ts)
        | _ => .error .malformed

def entriesFrom (fuel depth : Nat) (read : TomlEntries) (ts : List Token) :
    Except TomlFault (Toml × List Token) :=
  match fuel with
  | 0 => .error .malformed
  | fuel + 1 =>
    match skipSpace ts with
    | .mark '\x7d' :: ts => .ok (.table .braces read, ts)
    | ts =>
      match keyPath ts with
      | .ok (path, key, .mark '=' :: ts) =>
        match valueFrom fuel depth (skipBlanks ts) with
        | .error e => .error e
        | .ok (v, ts) =>
          match define path key v .braces read with
          | .error e => .error e
          | .ok read =>
            match skipSpace ts with
            | .mark ',' :: ts => entriesFrom fuel depth read ts
            | .mark '\x7d' :: ts => .ok (.table .braces read, ts)
            | _ => .error .malformed
      | .ok _ => .error .malformed
      | .error e => .error e

end

def value (ts : List Token) : Except TomlFault (Toml × List Token) :=
  valueFrom (2 * ts.length + 2) nestingLimit ts

/-! ### Statements -/

inductive Statement where
  /-- A header in single brackets. -/
  | table (path : List String) (key : String)
  /-- A header in double brackets. -/
  | element (path : List String) (key : String)
  /-- A key with its value. -/
  | entry (path : List String) (key : String) (v : Toml)

def statement (ts : List Token) : Except TomlFault (Statement × List Token) :=
  match ts with
  | .mark '[' :: .mark '[' :: ts =>
    match keyPath ts with
    | .ok (path, key, .mark ']' :: .mark ']' :: ts) => .ok (.element path key, ts)
    | .ok _ => .error .malformed
    | .error e => .error e
  | .mark '[' :: ts =>
    match keyPath ts with
    | .ok (path, key, .mark ']' :: ts) => .ok (.table path key, ts)
    | .ok _ => .error .malformed
    | .error e => .error e
  | ts =>
    match keyPath ts with
    | .ok (path, key, .mark '=' :: ts) =>
      (value (skipBlanks ts)).map fun (v, ts) => (.entry path key v, ts)
    | .ok _ => .error .malformed
    | .error e => .error e

/-- A document read in part: the path of the last header and the entries so far. -/
structure Draft where
  header : List String := []
  entries : TomlEntries := []

def Draft.add (d : Draft) : Statement → Except TomlFault Draft
  | .table path key =>
    (openTable path key d.entries).map fun es => ⟨path ++ [key], es⟩
  | .element path key =>
    (openElement path key d.entries).map fun es => ⟨path ++ [key], es⟩
  | .entry path key v =>
    (defineAt d.header path key v d.entries).map fun es => { d with entries := es }

/-- Read the rest of a document. Every statement takes of `fuel`, for which the number of tokens
suffices. -/
def statementsFrom (d : Draft) (fuel : Nat) (ts : List Token) : Except TomlFault Draft :=
  match fuel, skipSpace ts with
  | _, [] => .ok d
  | 0, _ => .error .malformed
  | fuel + 1, ts =>
    match statement ts with
    | .error e => .error e
    | .ok (s, ts) =>
      match skipBlanks ts with
      | [] => d.add s
      | .lineEnd :: ts =>
        match d.add s with
        | .error e => .error e
        | .ok d => statementsFrom d fuel ts
      | _ => .error .malformed

def ofText (text : String) : Except TomlFault TomlEntries :=
  match tokens text.toList with
  | none => .error .unreadable
  | some ts => (statementsFrom {} ts.length ts).map (·.entries)

end TabCompletion.Toml
