import TabCompletion.Grammar.Flaglike
import TabCompletion.Grammar.Help

/-!
# Other choices in the same grammar

`Grammar.mapSources` exchanges the choice sources of all arguments of a grammar and of those nested in
it. Everything else that a grammar is asked for is as it was: the arguments with their places, the
flags by their spellings, the members of a group, the subcommands.
-/

namespace TabCompletion

mutual

/-- The grammar with other sources in place of those that its arguments have. -/
def Grammar.mapSources (f : ChoiceSource → ChoiceSource) : Grammar → Grammar
  | ⟨prog, description, epilog, prefixChars, allowAbbrev, args, groups⟩ =>
    ⟨prog, description, epilog, prefixChars, allowAbbrev, argsMapSources f args, groups⟩

def argsMapSources (f : ChoiceSource → ChoiceSource) : List (ArgDef Grammar) → List (ArgDef Grammar)
  | [] => []
  | d :: ds => d.mapSources f :: argsMapSources f ds

def ArgDef.mapSources (f : ChoiceSource → ChoiceSource) : ArgDef Grammar → ArgDef Grammar
  | ⟨kind, dest, action, nargs, choices, help, hidden, metavar, required, suppressTabHint,
      descriptiveHeader, group⟩ =>
    ⟨kind.mapSources f, dest, action, nargs, choices.map f, help, hidden, metavar, required,
      suppressTabHint, descriptiveHeader, group⟩

def ArgKind.mapSources (f : ChoiceSource → ChoiceSource) : ArgKind Grammar → ArgKind Grammar
  | .flag aliases => .flag aliases
  | .positional => .positional
  | .dispatch subs recorded => .dispatch (subsMapSources f subs) recorded

def subsMapSources (f : ChoiceSource → ChoiceSource) :
    List (String × Grammar) → List (String × Grammar)
  | [] => []
  | sub :: subs => subMapSources f sub :: subsMapSources f subs

def subMapSources (f : ChoiceSource → ChoiceSource) : String × Grammar → String × Grammar
  | (name, g) => (name, g.mapSources f)

end

variable (f : ChoiceSource → ChoiceSource)

theorem argsMapSources_eq (ds : List (ArgDef Grammar)) :
    argsMapSources f ds = ds.map (·.mapSources f) := by
  induction ds with
  | nil => rfl
  | cons d ds ih => rw [argsMapSources, ih, List.map_cons]

theorem subsMapSources_eq (subs : List (String × Grammar)) :
    subsMapSources f subs = subs.map fun p => (p.1, p.2.mapSources f) := by
  induction subs with
  | nil => rfl
  | cons p subs ih => rw [subsMapSources, ih, List.map_cons, subMapSources]

/-! ## Arguments -/

namespace ArgDef

variable (d : ArgDef Grammar)

@[simp] theorem mapSources_dest : (d.mapSources f).dest = d.dest := by cases d; rfl
@[simp] theorem mapSources_nargs : (d.mapSources f).nargs = d.nargs := by cases d; rfl
@[simp] theorem mapSources_action : (d.mapSources f).action = d.action := by cases d; rfl
@[simp] theorem mapSources_group : (d.mapSources f).group = d.group := by cases d; rfl
@[simp] theorem mapSources_metavar : (d.mapSources f).metavar = d.metavar := by cases d; rfl
@[simp] theorem mapSources_choices : (d.mapSources f).choices = d.choices.map f := by cases d; rfl
@[simp] theorem mapSources_kind : (d.mapSources f).kind = d.kind.mapSources f := by cases d; rfl

@[simp] theorem mapSources_arity : (d.mapSources f).arity = d.arity := by simp [arity]

@[simp] theorem mapSources_isRemainder : (d.mapSources f).isRemainder = d.isRemainder := by
  simp [isRemainder]

@[simp] theorem mapSources_isReusable : (d.mapSources f).isReusable = d.isReusable := by
  simp [isReusable]

@[simp] theorem mapSources_aliases : (d.mapSources f).aliases = d.aliases := by
  rw [aliases, aliases, mapSources_kind]
  cases d.kind <;> rfl

@[simp] theorem mapSources_isFlag : (d.mapSources f).isFlag = d.isFlag := by
  rw [isFlag, isFlag, mapSources_kind]
  cases d.kind <;> rfl

@[simp] theorem mapSources_isDispatch : (d.mapSources f).isDispatch = d.isDispatch := by
  rw [isDispatch, isDispatch, mapSources_kind]
  cases d.kind <;> rfl

@[simp] theorem mapSources_recordsDest : (d.mapSources f).recordsDest = d.recordsDest := by
  rw [recordsDest, recordsDest, mapSources_kind]
  cases d.kind <;> rfl

@[simp] theorem mapSources_subcommands? : (d.mapSources f).subcommands? =
    d.subcommands?.map (·.map fun p => (p.1, p.2.mapSources f)) := by
  rw [subcommands?, subcommands?, mapSources_kind]
  cases d.kind with
  | flag aliases => rfl
  | positional => rfl
  | dispatch subs recorded => rw [ArgKind.mapSources, subsMapSources_eq]; rfl

/-- What an argument is called does not depend on its choices. -/
@[simp] theorem mapSources_displayName : (d.mapSources f).displayName = d.displayName := by
  unfold displayName
  rw [mapSources_isFlag, mapSources_aliases, mapSources_metavar, mapSources_kind, mapSources_dest]
  cases d.kind with
  | flag aliases => rfl
  | positional => rfl
  | dispatch subs recorded =>
      rw [ArgKind.mapSources, subsMapSources_eq]
      cases recorded <;> simp [Function.comp_def]

end ArgDef

/-- The argument with another source, in its place. -/
def Slot.mapSources (s : Slot) : Slot := { s with arg := s.arg.mapSources f }

@[simp] theorem Slot.mapSources_index (s : Slot) : (s.mapSources f).index = s.index := rfl

@[simp] theorem Slot.mapSources_arg (s : Slot) : (s.mapSources f).arg = s.arg.mapSources f := rfl

/-! ## Grammars -/

/-- Looking up a key among changed values is changing what is looked up. -/
theorem lookup_map {κ α β : Type} [BEq κ] (h : α → β) (k : κ) (entries : List (κ × α)) :
    (entries.map fun e => (e.1, h e.2)).lookup k = (entries.lookup k).map h := by
  induction entries with
  | nil => rfl
  | cons e entries ih =>
      rw [List.map_cons, List.lookup_cons, List.lookup_cons, ih]
      split <;> rfl

namespace Grammar

variable (g : Grammar)

@[simp] theorem mapSources_prog : (g.mapSources f).prog = g.prog := by cases g; rfl

@[simp] theorem mapSources_prefixChars : (g.mapSources f).prefixChars = g.prefixChars := by
  cases g; rfl

@[simp] theorem mapSources_allowAbbrev : (g.mapSources f).allowAbbrev = g.allowAbbrev := by
  cases g; rfl

@[simp] theorem mapSources_args : (g.mapSources f).args = g.args.map (·.mapSources f) := by
  cases g
  exact argsMapSources_eq f _

theorem slots_mapSources : (g.mapSources f).slots = g.slots.map (·.mapSources f) := by
  rw [slots, slots, mapSources_args, List.zipIdx_map, List.map_map, List.map_map]
  rfl

theorem flagTable_mapSources :
    (g.mapSources f).flagTable = g.flagTable.map fun e => (e.1, e.2.mapSources f) := by
  have hentries (s : Slot) :
      flagEntries (s.mapSources f) = (flagEntries s).map fun e => (e.1, e.2.mapSources f) := by
    simp [flagEntries]
  rw [flagTable, flagTable, slots_mapSources, List.flatMap_map, List.map_flatMap]
  simp only [hentries]

theorem matchFlag?_mapSources (word : String) :
    (g.mapSources f).matchFlag? word = (g.matchFlag? word).map (·.mapSources f) := by
  have hflag : (g.mapSources f).flag? word = (g.flag? word).map (·.mapSources f) := by
    rw [flag?, flagTable_mapSources]
    exact lookup_map _ _ _
  rw [matchFlag?, matchFlag?, hflag, mapSources_allowAbbrev, flagTable_mapSources, List.filter_map]
  cases g.flag? word with
  | some s => rfl
  | none =>
      cases g.allowAbbrev with
      | false => rfl
      | true =>
          -- Abbreviations are resolved in tables with the same spellings.
          simp only [Option.map_none, if_true, Function.comp_def]
          cases g.flagTable.filter fun e => Text.beginsWith e.1 word with
          | nil => rfl
          | cons e rest => cases rest <;> rfl

theorem looksLikeFlag_mapSources (word : String) :
    (g.mapSources f).looksLikeFlag word = g.looksLikeFlag word := by
  have hnegative : (g.mapSources f).hasNegativeNumberFlags = g.hasNegativeNumberFlags := by
    simp [hasNegativeNumberFlags, flagTable_mapSources, List.any_map, Function.comp_def]
  unfold looksLikeFlag isPrefixChar
  rw [hnegative, mapSources_prefixChars]

theorem positionals_mapSources :
    (g.mapSources f).positionals = g.positionals.map (·.mapSources f) := by
  simp [positionals, slots_mapSources, List.filter_map, Function.comp_def]

theorem groupMembers_mapSources (group : Nat) :
    (g.mapSources f).groupMembers group = (g.groupMembers group).map (·.mapSources f) := by
  simp [groupMembers, slots_mapSources, List.filter_map, Function.comp_def]

theorem dispatch?_mapSources : (g.mapSources f).dispatch? = g.dispatch?.map (·.mapSources f) := by
  simp [dispatch?, slots_mapSources, List.find?_map, Function.comp_def]

end Grammar

end TabCompletion
