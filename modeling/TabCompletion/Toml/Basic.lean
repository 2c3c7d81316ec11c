import TabCompletion.Number.Binary64

/-!
# TOML values

`Toml` is a value of a TOML document; the document itself is a table. Tables and arrays remember how
they came about, since that decides what the rest of the document may still add to them.
-/

namespace TabCompletion

/-- How a table came about. -/
inductive TableOrigin where
  /-- By standing in the path of a header. -/
  | implied
  /-- By standing in the path of a dotted key. -/
  | dotted
  /-- By a header of its own. -/
  | header
  /-- By being written out in braces, complete. -/
  | braces
  deriving DecidableEq, Repr

/-- Whether a table came about only by standing in a path. -/
def TableOrigin.isImplicit : TableOrigin → Bool
  | implied => true
  | dotted => true
  | _ => false

inductive Toml where
  | string (s : String)
  | integer (i : Int)
  | float (x : Binary64)
  | boolean (b : Bool)
  /-- A date, a time, or both. -/
  | moment
  /-- An array; an open one is made of headers in double brackets. -/
  | array (isOpen : Bool) (items : List Toml)
  | table (origin : TableOrigin) (entries : List (String × Toml))

/-- The entries of a table in the order of their keys' first use. -/
abbrev TomlEntries := List (String × Toml)

mutual

/-- How deeply values are nested in a value. -/
def Toml.height : Toml → Nat
  | .array _ items => Toml.heightOfItems items + 1
  | .table _ entries => Toml.heightOfEntries entries + 1
  | _ => 1

def Toml.heightOfItems : List Toml → Nat
  | [] => 0
  | v :: vs => max (Toml.height v) (Toml.heightOfItems vs)

def Toml.heightOfEntries : List (String × Toml) → Nat
  | [] => 0
  | (_, v) :: es => max (Toml.height v) (Toml.heightOfEntries es)

end

inductive TomlFault where
  /-- A character that may not stand where it does, or a text that is not closed. -/
  | unreadable
  /-- A line that is neither a header nor a key with a value. -/
  | malformed
  /-- A key that is already defined, or lies within something that cannot be added to. -/
  | redefined (key : String)
  /-- A value that is not of the kind that its place asks for. -/
  | unexpected (place : String)
  /-- An entry that is required and not there. -/
  | missing (key : String)
  deriving DecidableEq, Repr

def TomlFault.message : TomlFault → String
  | unreadable => "the text cannot be split into tokens"
  | malformed => "a line is neither a header nor a key with a value"
  | redefined key => "the key '" ++ key ++ "' is defined twice"
  | unexpected place => "the value of '" ++ place ++ "' is of the wrong kind"
  | missing key => "the key '" ++ key ++ "' is missing"

end TabCompletion
