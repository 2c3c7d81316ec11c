import TabCompletion.Grammar.Basic
import TabCompletion.Text.Case
import TabCompletion.Text.Width

/-!
# Usage lines and help pages

A help page has a usage line, the description, a section per kind of argument whose help texts
share one column, and the epilog. Hidden arguments appear nowhere.
-/

namespace TabCompletion

def braced (names : List String) : String := "\x7b" ++ ",".intercalate names ++ "\x7d"

namespace ArgDef

variable (d : ArgDef Grammar)

/-- The name of an argument in messages: its spellings, else its metavariable, else its
destination, or the subcommands' names where nothing is recorded. -/
def displayName : String :=
  if d.isFlag then "/".intercalate d.aliases
  else
    match d.metavar with
    | some m => m
    | none =>
      match d.kind with
      | .dispatch subs false => braced (subs.map (·.1))
      | _ => d.dest

/-- What stands for a value of the argument. -/
def valueName : String :=
  match d.metavar with
  | some m => m
  | none =>
    match d.subcommands? with
    | some subs => braced (subs.map (·.1))
    | none =>
      -- Computed choices are not asked for here.
      match d.choices.bind (·.fixed?) with
      | some choices => braced (choices.map (·.value.display))
      | none => if d.isFlag then Text.uppercase d.dest else d.dest

def valueNames : String :=
  if d.isDispatch then d.valueName ++ " ..." else d.nargs.render d.valueName

/-- The invocation shown in a section of the help page: every spelling with its values. -/
def invocation : String :=
  if !d.isFlag then d.valueName
  else if d.arity.takesNoValues then ", ".intercalate d.aliases
  else ", ".intercalate (d.aliases.map fun a => a ++ " " ++ d.valueNames)

/-- The invocation shown in the usage line: the first spelling with its values. -/
def usagePart : String :=
  let spelling := d.aliases.headD ""
  if d.arity.takesNoValues then spelling else spelling ++ " " ++ d.valueNames

end ArgDef

namespace Grammar

variable (g : Grammar)

/-! ### Usage -/

def isVisibleFlag (s : Slot) : Bool := s.arg.isFlag && !s.arg.hidden

def visibleFlags : List Slot := g.slots.filter isVisibleFlag

def visiblePositionals : List Slot := g.positionals.filter fun s => !s.arg.hidden

/-- The part of the usage line for an exclusive group: its shown flags. -/
def groupPart (group : Nat) : String :=
  let members := (g.groupMembers group).filter isVisibleFlag
  let joined := " | ".intercalate (members.map (·.arg.usagePart))
  if g.groupRequired group then "(" ++ joined ++ ")" else "[" ++ joined ++ "]"

/-- The parts of the usage line for flags; `shown` holds the groups that had theirs. -/
def flagParts (shown : List Nat) : List Slot → List String
  | [] => []
  | s :: rest =>
    match s.arg.group with
    | some group =>
      -- A group has one part, where its first shown flag stands.
      if shown.contains group then flagParts shown rest
      else g.groupPart group :: flagParts (group :: shown) rest
    | none =>
      (if s.arg.required then s.arg.usagePart else "[" ++ s.arg.usagePart ++ "]") ::
        flagParts shown rest

def usageParts : List String :=
  g.flagParts [] g.visibleFlags ++ g.visiblePositionals.map (·.arg.valueNames)

def usage : String := " ".intercalate ("usage:" :: g.prog :: g.usageParts)

end Grammar

/-! ### Sections -/

/-- A line of a section: how far it is indented, what is invoked, and its help. -/
structure HelpEntry where
  indent : Nat
  invocation : String
  help : Option String
  deriving DecidableEq, Repr

namespace HelpEntry

def baseIndent : Nat := 2

/-- The rightmost column that help texts start at. -/
def maxHelpColumn : Nat := 24

def ofArg (d : ArgDef Grammar) : HelpEntry := ⟨baseIndent, d.invocation, d.help⟩

/-- The entries of a positional. The dispatch argument lists its subcommands beneath it. -/
def ofPositional (d : ArgDef Grammar) : List HelpEntry :=
  let subs := d.subcommands?.getD []
  ofArg d :: subs.map fun p => ⟨2 * baseIndent, p.1, p.2.description⟩

/-- The column that the help texts of a page start at. -/
def helpColumn (entries : List HelpEntry) : Nat :=
  let longest := (entries.map fun e => e.indent + Text.columns e.invocation).foldl max 0
  min (longest + 2) maxHelpColumn

/-- The line of an entry, or two lines where the help does not fit beside the invocation. -/
def render (column : Nat) (e : HelpEntry) : String :=
  let head := Text.spaces e.indent ++ e.invocation
  let width := Text.columns head
  match e.help with
  | none => head ++ "\n"
  | some help =>
    if width + 2 ≤ column then head ++ Text.spaces (column - width) ++ help ++ "\n"
    else head ++ "\n" ++ Text.spaces column ++ help ++ "\n"

def renderAll (column : Nat) (entries : List HelpEntry) : String :=
  String.join (entries.map (render column))

end HelpEntry

namespace Grammar

variable (g : Grammar)

/-- A section of the help page, left out if it has no entries. -/
def helpSection (title : String) (column : Nat) (entries : List HelpEntry) : String :=
  if entries.isEmpty then "" else title ++ "\n" ++ HelpEntry.renderAll column entries ++ "\n"

/-- The help page, ending in one line feed. -/
def helpPage : String :=
  let positionals := g.visiblePositionals.flatMap fun s => HelpEntry.ofPositional s.arg
  let optionals := g.visibleFlags.map fun s => HelpEntry.ofArg s.arg
  let column := HelpEntry.helpColumn (positionals ++ optionals)
  let page :=
    g.usage ++ "\n\n" ++
      (match g.description with
        | some d => d ++ "\n\n"
        | none => "") ++
      helpSection "positional arguments:" column positionals ++
      helpSection "optional arguments:" column optionals ++
      (match g.epilog with
        | some e => e ++ "\n"
        | none => "")
  Text.trimEnd page ++ "\n"

end Grammar

/-- The hint shown where an argument has nothing to complete. -/
def ArgDef.hint (d : ArgDef Grammar) : String :=
  let entries := [HelpEntry.ofArg d]
  "Hint:\n" ++ HelpEntry.renderAll (HelpEntry.helpColumn entries) entries

end TabCompletion
