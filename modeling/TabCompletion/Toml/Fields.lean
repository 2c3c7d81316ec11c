import TabCompletion.Toml.Basic

/-!
# Taking values out of TOML

Readers for the kinds of value that a document is asked for. A record is a table whose keys are
known; keys that are not known are passed over. It may also be written as an array of its values in
the order of its fields, in which the last ones may be left out.
-/

namespace TabCompletion.Toml

/-- What takes a value of type `α` at a named place out of a document. -/
abbrev Reader (α : Type) := String → Toml → Except TomlFault α

def asText : Reader String
  | _, .string s => .ok s
  | place, _ => .error (.unexpected place)

def asFlag : Reader Bool
  | _, .boolean b => .ok b
  | place, _ => .error (.unexpected place)

/-- The least integer, `2^64`, that is too great to count things. -/
def countLimit : Int := 18446744073709551616

def asCount : Reader Nat
  | place, .integer i =>
    if 0 ≤ i && i < countLimit then .ok i.toNat else .error (.unexpected place)
  | place, _ => .error (.unexpected place)

def asList {α : Type} (read : Reader α) : Reader (List α)
  | place, .array _ items => items.mapM (read place)
  | place, _ => .error (.unexpected place)

/-- A table whose values are all of one kind. A moment counts as a table with a text in it. -/
def asTable {α : Type} (read : Reader α) : Reader (List (String × α))
  | _, .table _ entries => entries.mapM fun (key, v) => (read key v).map fun a => (key, a)
  | place, .moment => (read place (.string "")).map fun a => [("", a)]
  | place, _ => .error (.unexpected place)

/-- The fields of a record. A moment counts as a table without any of them. -/
def asRecord (fields : List String) : Reader TomlEntries
  | _, .table _ entries => .ok entries
  | _, .array _ items => .ok (fields.zip items)
  | _, .moment => .ok []
  | place, _ => .error (.unexpected place)

def optional {α : Type} (read : Reader α) (key : String) (fields : TomlEntries) :
    Except TomlFault (Option α) :=
  match fields.lookup key with
  | some v => (read key v).map some
  | none => .ok none

def required {α : Type} (read : Reader α) (key : String) (fields : TomlEntries) :
    Except TomlFault α :=
  match fields.lookup key with
  | some v => read key v
  | none => .error (.missing key)

def withDefault {α : Type} (read : Reader α) (key : String) (fallback : α)
    (fields : TomlEntries) : Except TomlFault α :=
  (optional read key fields).map (·.getD fallback)

end TabCompletion.Toml
