import TabCompletion.Grammar.Error
import TabCompletion.Grammar.Flaglike

/-!
# Building a grammar from declarations

A `GrammarSpec` lists what a command declares, in order. `GrammarSpec.build` checks the
declarations one after the other against those before them, and gives the grammar or the first
fault. A subcommand declared twice is found before everything else.
-/

namespace TabCompletion

/-- The declaration of an argument: a positional if it has a name, a flag otherwise. What is not
given takes its default when the grammar is built. -/
structure ArgSpec where
  aliases : List String := []
  name : Option String := none
  dest : Option String := none
  action : Action := .store
  nargs : Option Nargs := none
  choices : Option ChoiceSource := none
  help : Option String := none
  hidden : Bool := false
  metavar : Option String := none
  required : Bool := false
  suppressTabHint : Bool := false
  descriptiveHeader : Option String := none

inductive SpecItem where
  | arg (a : ArgSpec)
  /-- Arguments of which at most one may be used. -/
  | exclusive (required : Bool) (members : List ArgSpec)
  | subcommand (name : String) (grammar : Grammar)

structure GrammarSpec where
  prog : String
  description : Option String := none
  epilog : Option String := none
  prefixChars : String := "-"
  allowAbbrev : Bool := true
  /-- Whether a flag `-h`/`--help` comes before all declared arguments. -/
  addHelp : Bool := false
  items : List SpecItem := []
  subcommandsDest : Option String := none
  subcommandsHelp : Option String := none
  subcommandsMetavar : Option String := none

/-! ### Completing a declaration -/

/-- Whether a flag spelling begins with two prefix characters. -/
def isLongSpelling (prefixChars : List Char) (spelling : String) : Bool :=
  match spelling.toList with
  | a :: b :: _ => prefixChars.contains a && prefixChars.contains b
  | _ => false

/-- The destination of a flag that declares none: its first long spelling, or its first one,
without the prefix characters and with underscores for hyphens. -/
def defaultFlagDest (prefixChars : List Char) (aliases : List String) : String :=
  let chosen := (aliases.find? (isLongSpelling prefixChars)).getD (aliases.headD "")
  let bare := chosen.toList.dropWhile prefixChars.contains
  String.ofList (bare.map fun c => if c = '-' then '_' else c)

def ArgSpec.toDef (a : ArgSpec) (prefixChars : List Char) (group : Option Nat) : ArgDef Grammar :=
  let (kind, dest) := match a.name with
    | some name => (ArgKind.positional, name)
    | none => (ArgKind.flag a.aliases, defaultFlagDest prefixChars a.aliases)
  { kind
    dest := a.dest.getD dest
    action := a.action
    nargs := a.nargs.getD a.action.defaultNargs
    choices := a.choices
    help := a.help
    hidden := a.hidden
    metavar := a.metavar
    required := a.required
    suppressTabHint := a.suppressTabHint
    descriptiveHeader := a.descriptiveHeader
    group }

def ArgSpec.helpFlag : ArgSpec :=
  { aliases := ["-h", "--help"]
    action := .help
    help := some "show this help message and exit" }

namespace GrammarSpec

variable (s : GrammarSpec)

def subcommands : List (String × Grammar) :=
  s.items.filterMap fun
    | .subcommand name g => some (name, g)
    | _ => none

/-- The first name that stands in a list a second time. -/
def firstRepeated (seen : List String) : List String → Option String
  | [] => none
  | n :: ns => if seen.contains n then some n else firstRepeated (n :: seen) ns

/-- The dispatch argument, which offers all subcommands. -/
def dispatchDef : ArgDef Grammar :=
  { kind := .dispatch s.subcommands s.subcommandsDest.isSome
    dest := s.subcommandsDest.getD ""
    action := .store
    nargs := .single
    choices := none
    help := s.subcommandsHelp
    hidden := false
    metavar := s.subcommandsMetavar
    required := false
    suppressTabHint := false
    descriptiveHeader := none
    group := none }

/-- The arguments that the remaining declarations stand for. Groups are numbered from `group` on. -/
def defsFrom (group : Nat) (dispatched : Bool) : List SpecItem → List (ArgDef Grammar)
  | [] => []
  | .arg a :: rest => a.toDef s.prefixChars.toList none :: defsFrom group dispatched rest
  | .exclusive _ members :: rest =>
    members.map (·.toDef s.prefixChars.toList (some group)) ++ defsFrom (group + 1) dispatched rest
  | .subcommand _ _ :: rest =>
    -- The dispatch argument stands where the first subcommand is declared.
    if dispatched then defsFrom group true rest else s.dispatchDef :: defsFrom group true rest

/-- All arguments in their order, the help flag first if there is one. -/
def defs : List (ArgDef Grammar) :=
  let declared := s.defsFrom 0 false s.items
  if s.addHelp then ArgSpec.helpFlag.toDef s.prefixChars.toList none :: declared else declared

/-- For each exclusive group, whether it is required. -/
def groupMarks : List Bool :=
  s.items.filterMap fun
    | .exclusive required _ => some required
    | _ => none

end GrammarSpec

/-! ### Checking -/

def checkSpellings (prefixChars : List Char) (taken : List String) :
    List String → Except GrammarError Unit
  | [] => .ok ()
  | a :: rest =>
    if !(a.toList.head?.any prefixChars.contains) then .error (.invalidFlag a)
    else if taken.contains a then .error (.duplicateFlag a)
    -- The flag's own spellings are not compared with each other.
    else checkSpellings prefixChars taken rest

/-- Whether an argument is a flag of this destination whose values, or those of the new flag,
would be overwritten. -/
def clashesWith (d other : ArgDef Grammar) : Bool :=
  other.isFlag && other.dest == d.dest && !(other.isReusable && d.isReusable)

def checkArg (prefixChars : List Char) (earlier : List (ArgDef Grammar)) (d : ArgDef Grammar) :
    Except GrammarError Unit :=
  if !d.nargs.isValid then
    .error (.invalidNargs (d.arity.text ++ " for '" ++ d.dest ++ "'"))
  else
    match d.kind with
    | .flag aliases =>
      match checkSpellings prefixChars (earlier.flatMap (·.aliases)) aliases with
      | .error e => .error e
      | .ok () => if earlier.any (clashesWith d) then .error (.destConflict d.dest) else .ok ()
    | .positional =>
      if d.dest.toList.head?.any prefixChars.contains then .error (.invalidPositional d.dest)
      else if !d.action.suitsPositional then .error (.invalidAction d.dest d.action.name)
      else .ok ()
    | .dispatch _ _ => .ok ()

/-- Check arguments one after the other, each against all before it. -/
def checkArgs (prefixChars : List Char) (earlier : List (ArgDef Grammar)) :
    List (ArgDef Grammar) → Except GrammarError Unit
  | [] => .ok ()
  | d :: rest =>
    match checkArg prefixChars earlier d with
    | .error e => .error e
    | .ok () => checkArgs prefixChars (earlier ++ [d]) rest

/-- The grammar of the declarations, or the first fault in them. -/
def GrammarSpec.build (s : GrammarSpec) : Except GrammarError Grammar :=
  -- Subcommands are compared before any argument is looked at.
  match GrammarSpec.firstRepeated [] (s.subcommands.map (·.1)) with
  | some name => .error (.duplicateSubcommand name)
  | none =>
    match checkArgs s.prefixChars.toList [] s.defs with
    | .error e => .error e
    | .ok () =>
      .ok { prog := s.prog
            description := s.description
            epilog := s.epilog
            prefixChars := s.prefixChars
            allowAbbrev := s.allowAbbrev
            args := s.defs
            groups := s.groupMarks }

end TabCompletion
