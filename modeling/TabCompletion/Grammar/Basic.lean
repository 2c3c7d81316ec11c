import TabCompletion.Arity
import TabCompletion.Choice
import TabCompletion.Text.Blank

/-!
# Grammars of commands

A `Grammar` describes the arguments of one command in the order of their declaration: flags,
positionals, and at most one dispatch argument, a positional that selects a grammar nested in this
one. Everything else a reader of a grammar asks for (the table of flag spellings, the positionals,
the members of an exclusive group) is computed from that list.
-/

namespace TabCompletion

/-- What an argument does with its values. -/
inductive Action where
  | store
  | storeConst
  | storeTrue
  | storeFalse
  | append
  | appendConst
  | count
  | help
  deriving DecidableEq, Repr

namespace Action

def all : List Action :=
  [store, storeConst, storeTrue, storeFalse, append, appendConst, count, help]

def name : Action → String
  | store => "store"
  | storeConst => "store_const"
  | storeTrue => "store_true"
  | storeFalse => "store_false"
  | append => "append"
  | appendConst => "append_const"
  | count => "count"
  | help => "help"

def ofName? (s : String) : Option Action := all.find? (·.name == s)

/-- Whether a flag keeps its earlier values when it is repeated. -/
def isReusable : Action → Bool
  | append => true
  | appendConst => true
  | count => true
  | _ => false

/-- The number of values where none is declared. -/
def defaultNargs : Action → Nargs
  | store => .single
  | append => .single
  | _ => .exactly 0

def suitsPositional : Action → Bool
  | store => true
  | append => true
  | _ => false

end Action

/-- The three kinds of argument. `G` is the type of nested grammars. -/
inductive ArgKind (G : Type) where
  /-- An option with one or more spellings. -/
  | flag (aliases : List String)
  /-- A value known by its place. -/
  | positional
  /-- A positional that names a subcommand; its value is recorded only if it has a destination. -/
  | dispatch (subcommands : List (String × G)) (recorded : Bool)

structure ArgDef (G : Type) where
  kind : ArgKind G
  dest : String
  action : Action
  nargs : Nargs
  choices : Option ChoiceSource
  help : Option String
  hidden : Bool
  metavar : Option String
  required : Bool
  suppressTabHint : Bool
  descriptiveHeader : Option String
  /-- The exclusive group the argument belongs to. -/
  group : Option Nat

/-- The description of one command or subcommand. -/
structure Grammar where
  prog : String
  description : Option String
  epilog : Option String
  /-- The characters that a flag may begin with. -/
  prefixChars : String
  /-- Whether an unambiguous beginning stands for its flag. -/
  allowAbbrev : Bool
  args : List (ArgDef Grammar)
  /-- For each exclusive group, whether one of its members is required. -/
  groups : List Bool

instance : Inhabited Grammar := ⟨⟨"", none, none, "-", true, [], []⟩⟩

namespace ArgDef

variable {G : Type} (d : ArgDef G)

/-- The spellings of a flag; a positional has none. -/
def aliases : List String :=
  match d.kind with
  | .flag as => as
  | _ => []

def isFlag : Bool :=
  match d.kind with
  | .flag _ => true
  | _ => false

def isDispatch : Bool :=
  match d.kind with
  | .dispatch _ _ => true
  | _ => false

def subcommands? : Option (List (String × G)) :=
  match d.kind with
  | .dispatch subs _ => some subs
  | _ => none

def recordsDest : Bool :=
  match d.kind with
  | .dispatch _ recorded => recorded
  | _ => true

def arity : Arity := d.nargs.arity

def isRemainder : Bool := d.nargs.isRemainder

def isReusable : Bool := d.action.isReusable

end ArgDef

/-- An argument together with its place in the grammar. -/
structure Slot where
  index : Nat
  arg : ArgDef Grammar

namespace Grammar

variable (g : Grammar)

/-- The arguments with their places, in declaration order. -/
def slots : List Slot := g.args.zipIdx.map fun p => ⟨p.2, p.1⟩

def isPrefixChar (c : Char) : Bool := g.prefixChars.toList.contains c

/-! ### Flags -/

/-- The spellings of one flag, each once. -/
def flagEntries (s : Slot) : List (String × Slot) :=
  s.arg.aliases.eraseDups.map fun a => (a, s)

def flagTable : List (String × Slot) := g.slots.flatMap flagEntries

def flag? (spelling : String) : Option Slot := g.flagTable.lookup spelling

/-- The flag that a word stands for, in full or abbreviated. -/
def matchFlag? (word : String) : Option Slot :=
  match g.flag? word with
  | some s => some s
  | none =>
    if g.allowAbbrev then
      -- Two spellings that begin with the word leave it open even if one flag has both.
      match g.flagTable.filter fun e => Text.beginsWith e.1 word with
      | [e] => some e.2
      | _ => none
    else none

/-! ### Positionals and subcommands -/

/-- The positional arguments in declaration order, the dispatch argument among them. -/
def positionals : List Slot := g.slots.filter fun s => !s.arg.isFlag

def dispatch? : Option Slot := g.slots.find? fun s => s.arg.isDispatch

def subcommands : List (String × Grammar) :=
  match g.dispatch? with
  | some s => s.arg.subcommands?.getD []
  | none => []

def subcommand? (name : String) : Option Grammar := g.subcommands.lookup name

def subcommandNames : List String := g.subcommands.map (·.1)

/-! ### Exclusive groups -/

def groupMembers (group : Nat) : List Slot := g.slots.filter fun s => s.arg.group == some group

def groupRequired (group : Nat) : Bool := g.groups.getD group false

end Grammar

end TabCompletion
