import TabCompletion.Grammar.Builder
import TabCompletion.Schema.Basic

/-!
# Building grammars from schemas

`Schema.Command.build` makes what a schema says into declarations, and these into a grammar, or
gives the first fault. `Sources` says what the names of choice sources stand for.
-/

namespace TabCompletion.Schema

abbrev Sources := List (String × ChoiceSource)

/-! ### Arguments -/

def Count.toNargs : Count → Except GrammarError Nargs
  | fixed n => .ok (.exactly n)
  | symbol s =>
    match s with
    | "?" => .ok .optional
    | "*" => .ok .zeroOrMore
    | "+" => .ok .oneOrMore
    | "..." => .ok .remainder
    | _ => .error (.invalidNargs ("unknown symbol '" ++ s ++ "'"))
  | bounds [min] => .ok (.range min none)
  | bounds [min, max] => .ok (.range min (some max))
  | bounds ns =>
    .error (.invalidNargs ("range must have one or two bounds, got " ++ toString ns.length))

namespace Arg

variable (a : Arg)

/-- The spellings of a flag, or the name of a positional; an argument has one of the two. -/
def identity : Except GrammarError (List String × Option String) :=
  match a.flags, a.name with
  | some (flag :: flags), none => .ok (flag :: flags, none)
  | none, some name => .ok ([], some name)
  | _, _ => .error (.invalidFormat "each argument needs either 'flags' or 'name'")

/-- What an argument is called in a complaint about its action. -/
def label : String := a.name.getD ((a.flags.getD []).headD "")

/-- The action of an argument, which stores its values if none is given. -/
def toAction : Except GrammarError Action :=
  match a.action with
  | none => .ok .store
  | some name =>
    match Action.ofName? name with
    | some action => .ok action
    | none => .error (.invalidAction a.label name)

def toNargs : Except GrammarError (Option Nargs) :=
  match a.nargs with
  | none => .ok none
  | some count => count.toNargs.map some

/-- Where the values of an argument come from: choices that are listed, or a source that is
named. -/
def toSource (sources : Sources) : Except GrammarError (Option ChoiceSource) :=
  match a.choices, a.provider with
  | some _, some provider =>
    .error (.invalidFormat
      ("argument declares both 'choices' and 'provider' (" ++ provider ++ ")"))
  | some choices, none => .ok (some (.fixed choices))
  | none, some provider =>
    match sources.lookup provider with
    | some source => .ok (some source)
    | none => .error (.unknownProvider provider)
  | none, none => .ok none

def toSpec (sources : Sources) : Except GrammarError ArgSpec := do
  let (aliases, name) ← a.identity
  let action ← a.toAction
  let nargs ← a.toNargs
  let choices ← a.toSource sources
  return { aliases
           name
           dest := a.dest
           action
           nargs
           choices
           help := a.help
           hidden := a.hidden
           metavar := a.metavar
           required := a.required
           suppressTabHint := a.suppressTabHint
           descriptiveHeader := a.descriptiveHeader }

end Arg

/-! ### Commands -/

namespace Outline

variable (o : Outline)

def isRequired (group : String) : Bool := (o.groups.lookup group).getD false

def membersOf (group : String) : List Arg := o.args.filter fun a => a.group == some group

/-- The declarations of the remaining arguments; `declared` holds the groups that were declared. -/
def itemsFrom (sources : Sources) (declared : List String) :
    List Arg → Except GrammarError (List SpecItem)
  | [] => .ok []
  | a :: rest =>
    match a.group with
    | none => do
      let spec ← a.toSpec sources
      return .arg spec :: (← itemsFrom sources declared rest)
    | some group =>
      if declared.contains group then itemsFrom sources declared rest
      else do
        -- All members are declared where the first one stands.
        let members ← (o.membersOf group).mapM (·.toSpec sources)
        return .exclusive (o.isRequired group) members ::
          (← itemsFrom sources (group :: declared) rest)

/-- The declarations of a command whose subcommands have been built. -/
def toSpec (items : List SpecItem) (subcommands : List (String × Grammar)) : GrammarSpec :=
  { prog := o.name
    description := o.description
    epilog := o.epilog
    prefixChars := o.prefixChars
    allowAbbrev := o.allowAbbrev
    addHelp := o.addHelp
    items := items ++ subcommands.map fun p => .subcommand p.1 p.2
    subcommandsDest := o.subcommandDest
    subcommandsHelp := o.subcommandHelp
    subcommandsMetavar := o.subcommandMetavar }

end Outline

mutual

/-- The grammar of a command, or the first fault found: in the arguments by themselves, in a
subcommand, or in all of them together. -/
def Command.build (sources : Sources) : Command → Except GrammarError Grammar
  | ⟨o, subs⟩ => do
    let items ← o.itemsFrom sources [] o.args
    let subcommands ← Command.buildSubcommands sources subs
    (o.toSpec items subcommands).build

def Command.buildSubcommands (sources : Sources) :
    List Command → Except GrammarError (List (String × Grammar))
  | [] => .ok []
  | c :: cs => do
    let g ← Command.build sources c
    return (c.name, g) :: (← Command.buildSubcommands sources cs)

end

def buildAll (sources : Sources) (commands : List Command) : Except GrammarError (List Grammar) :=
  (Command.buildSubcommands sources commands).map (·.map (·.2))

end TabCompletion.Schema
