import TabCompletion.Choice

/-!
# Command schemas

A schema says in plain data what a command takes, so that it can be written down in a document.
Choice sources that compute their choices cannot be written down; a schema names them.
-/

namespace TabCompletion.Schema

/-- The number of values, as it is written. -/
inductive Count where
  | fixed (count : Nat)
  /-- One of the symbols `?`, `*`, `+` and `...`. -/
  | symbol (s : String)
  /-- The least number, and the greatest if there are two entries. -/
  | bounds (ns : List Nat)
  deriving DecidableEq, Repr

/-- An argument: a flag with its spellings, or a positional with its name. -/
structure Arg where
  flags : Option (List String) := none
  name : Option String := none
  dest : Option String := none
  action : Option String := none
  nargs : Option Count := none
  choices : Option (List Choice) := none
  /-- The name of a choice source. -/
  provider : Option String := none
  help : Option String := none
  hidden : Bool := false
  metavar : Option String := none
  required : Bool := false
  /-- The name of the exclusive group that the argument belongs to. -/
  group : Option String := none
  descriptiveHeader : Option String := none
  suppressTabHint : Bool := false
  deriving DecidableEq, Repr

/-- What a command is, apart from its subcommands. -/
structure Outline where
  name : String
  description : Option String := none
  epilog : Option String := none
  addHelp : Bool := false
  allowAbbrev : Bool := true
  prefixChars : String := "-"
  subcommandDest : Option String := none
  subcommandHelp : Option String := none
  subcommandMetavar : Option String := none
  args : List Arg := []
  /-- The exclusive groups that settings are given for: whether a member is required. -/
  groups : List (String × Bool) := []
  deriving DecidableEq, Repr

structure Command extends Outline where
  subcommands : List Command := []

end TabCompletion.Schema
