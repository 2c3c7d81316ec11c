import TabCompletion.Toml.Basic

/-!
# Defining keys in a table

`define` adds a key with its value, `openTable` and `openElement` act on a header in single and in
double brackets. Each follows a path of keys from a table, making the tables it does not find. A
table defined by its own header is not redefined by a header or by dotted keys, and what is written
out in braces or brackets is complete.
-/

namespace TabCompletion.Toml

/-- Change the value of a key by `f`, which is given the present one. A new key goes to the end. -/
def alter (key : String) (f : Option Toml → Except TomlFault Toml) :
    TomlEntries → Except TomlFault TomlEntries
  | [] => (f none).map fun v => [(key, v)]
  | (k, v) :: rest =>
    if k = key then (f (some v)).map fun w => (k, w) :: rest
    else (alter key f rest).map ((k, v) :: ·)

/-- What `f` does to a table, done to the value of a key in a path. `isDotted` says whether the
path belongs to a dotted key rather than to a header. -/
def within (isDotted : Bool) (key : String)
    (f : TableOrigin → TomlEntries → Except TomlFault TomlEntries) :
    Option Toml → Except TomlFault Toml
  | none =>
    let origin : TableOrigin := if isDotted then .dotted else .implied
    (f origin []).map (.table origin)
  | some (.table origin entries) =>
    if origin = .braces || (isDotted && !origin.isImplicit) then
      .error (.redefined key)
    else (f origin entries).map (.table origin)
  -- Of an array that headers made, the path leads through the last table.
  | some (.array true items) =>
    match items.getLast? with
    | some (.table origin entries) =>
      (f origin entries).map fun es => .array true (items.dropLast ++ [.table origin es])
    | _ => .error (.redefined key)
  | some _ => .error (.redefined key)

/-- Follow a path from a table and change the table it leads to by `f`. -/
def descend (isDotted : Bool) (f : TableOrigin → TomlEntries → Except TomlFault TomlEntries)
    (origin : TableOrigin) (entries : TomlEntries) : List String → Except TomlFault TomlEntries
  | [] => f origin entries
  | key :: path =>
    alter key (within isDotted key fun o es => descend isDotted f o es path) entries

def addNew (key : String) (v : Toml) (entries : TomlEntries) : Except TomlFault TomlEntries :=
  alter key (fun
    | none => .ok v
    | some _ => .error (.redefined key)) entries

/-- Define the key at the end of a path. -/
def define (path : List String) (key : String) (v : Toml) (origin : TableOrigin)
    (entries : TomlEntries) : Except TomlFault TomlEntries :=
  descend true (fun o es =>
    -- A path of several keys leads through tables that dotted keys made, and a single key does not
    -- add to such a table.
    if (o == .dotted) == path.isEmpty then .error (.redefined key) else addNew key v es)
    origin entries path

/-- Act on a header in single brackets: the table at the end of its path has its own header. -/
def openTable (path : List String) (key : String) (entries : TomlEntries) :
    Except TomlFault TomlEntries :=
  descend false (fun _ es =>
    alter key (fun
      | none => .ok (.table .header [])
      -- A header may follow the longer headers that lead through its table.
      | some (.table .implied inner) => .ok (.table .header inner)
      | some _ => .error (.redefined key)) es)
    .header entries path

/-- Act on a header in double brackets: the array at the end of its path has one more table. -/
def openElement (path : List String) (key : String) (entries : TomlEntries) :
    Except TomlFault TomlEntries :=
  descend false (fun _ es =>
    alter key (fun
      | none => .ok (.array true [.table .header []])
      | some (.array true items) => .ok (.array true (items ++ [.table .header []]))
      | some _ => .error (.redefined key)) es)
    .header entries path

/-- Define a key in the table that the last header opened. -/
def defineAt (header : List String) (path : List String) (key : String) (v : Toml)
    (entries : TomlEntries) : Except TomlFault TomlEntries :=
  descend false (fun _ es => define path key v .header es) .header entries header

end TabCompletion.Toml
