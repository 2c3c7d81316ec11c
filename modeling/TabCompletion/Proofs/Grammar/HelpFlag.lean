import TabCompletion.Proofs.Grammar.Registry

/-!
# The help flag before all arguments

With help the same declarations give the same arguments behind a help flag, which is checked as any other
flag is. So building succeeds just if the rest of the grammar admits that flag (`build_addHelp_iff`): its
spellings must begin with a prefix character, and they and its destination must not be another flag's.
Then all arguments move one place on in the tables that they are entered in (`registry_withHelpFlag`).
-/

namespace TabCompletion

variable {g : Grammar} {spec : GrammarSpec} {d : ArgDef Grammar} {prefixChars : List Char}

/-! ## The help flag -/

def helpDef (prefixChars : List Char) : ArgDef Grammar := ArgSpec.helpFlag.toDef prefixChars none

/-- The destination of the help flag. Where `h` is a prefix character as well, `-h` counts as a long
spelling and nothing is left of it. -/
def helpDest (prefixChars : List Char) : String := if prefixChars.contains 'h' then "" else "help"

theorem helpDef_dest (h : prefixChars.contains '-' = true) :
    (helpDef prefixChars).dest = helpDest prefixChars := by
  have hdest : (helpDef prefixChars).dest = defaultFlagDest prefixChars ["-h", "--help"] := rfl
  rw [hdest, helpDest, defaultFlagDest]
  cases hletter : prefixChars.contains 'h' <;> simp_all [isLongSpelling]

theorem helpDef_sound_iff : (helpDef prefixChars).Sound prefixChars ↔ prefixChars.contains '-' = true := by
  have haliases : (helpDef prefixChars).aliases = ["-h", "--help"] := rfl
  constructor
  · intro h
    simpa using h.spelling "-h" (by simp [haliases])
  · intro h
    refine ⟨rfl, ?_, nofun⟩
    simpa [haliases] using h

/-- A flag may follow the help flag if it has neither its spellings nor its destination: help is given
once, so that nothing may be added to its values. -/
theorem mayFollow_helpDef_iff (h : prefixChars.contains '-' = true) :
    d.MayFollow (helpDef prefixChars) ↔
      ("-h" ∉ d.aliases ∧ "--help" ∉ d.aliases) ∧
        (d.isFlag = true → d.dest ≠ helpDest prefixChars) := by
  have haliases : (helpDef prefixChars).aliases = ["-h", "--help"] := rfl
  have hclash : clashesWith d (helpDef prefixChars) = (helpDest prefixChars == d.dest) := by
    have hflag : (helpDef prefixChars).isFlag = true := rfl
    have honce : (helpDef prefixChars).isReusable = false := rfl
    rw [clashesWith, hflag, honce, helpDef_dest h, Bool.true_and, Bool.false_and, Bool.not_false,
      Bool.and_true]
  constructor
  · intro hfollow
    refine ⟨⟨fun ha => hfollow.spelling _ ha (by simp [haliases]),
      fun ha => hfollow.spelling _ ha (by simp [haliases])⟩, ?_⟩
    intro hflag hdest
    have hdistinct := hfollow.dest hflag
    simp [hclash, hdest] at hdistinct
  · rintro ⟨⟨hshort, hlong⟩, hdest⟩
    constructor
    · intro a ha hown
      rw [haliases] at hown
      simp only [List.mem_cons, List.not_mem_nil, or_false] at hown
      rcases hown with rfl | rfl
      · exact hshort ha
      · exact hlong ha
    · intro hflag
      rw [hclash, beq_eq_false_iff_ne]
      exact (hdest hflag).symm

namespace GrammarSpec

/-- Help puts its flag before the declared arguments and changes none of them. -/
theorem defs_addHelp (spec : GrammarSpec) :
    ({ spec with addHelp := true }).defs =
      helpDef spec.prefixChars.toList :: ({ spec with addHelp := false }).defs :=
  congrArg (helpDef spec.prefixChars.toList :: ·) (defsFrom_congr rfl rfl)

end GrammarSpec

/-! ## The grammar with the help flag -/

def Slot.shift (s : Slot) : Slot := ⟨s.index + 1, s.arg⟩

/-- The tables after one flag that comes before all arguments. -/
def Registry.shift (spellings : List String) (t : Registry) : Registry :=
  { flags := spellings.map (·, 0) ++ t.flags.map fun e => (e.1, e.2 + 1)
    positionals := t.positionals.map (· + 1)
    dispatch := t.dispatch.map (· + 1)
    groups := t.groups.map fun members => members.map (· + 1)
    negativeNumbers := t.negativeNumbers }

namespace Grammar

/-- The grammar with the help flag before all its arguments. -/
def withHelpFlag (g : Grammar) : Grammar := { g with args := helpDef g.prefixChars.toList :: g.args }

/-- A hyphen is a prefix character, and no flag has a spelling or the destination of the help flag. -/
structure AdmitsHelp (g : Grammar) : Prop where
  prefixChar : g.isPrefixChar '-' = true
  spelling : ∀ d ∈ g.args, "-h" ∉ d.aliases ∧ "--help" ∉ d.aliases
  dest : ∀ d ∈ g.args, d.isFlag = true → d.dest ≠ helpDest g.prefixChars.toList

theorem admitsHelp_iff :
    g.AdmitsHelp ↔
      (helpDef g.prefixChars.toList).Sound g.prefixChars.toList ∧
        ∀ d ∈ g.args, d.MayFollow (helpDef g.prefixChars.toList) := by
  rw [helpDef_sound_iff]
  constructor
  · rintro ⟨hchar, hspelling, hdest⟩
    exact ⟨hchar, fun d hd => (mayFollow_helpDef_iff hchar).mpr ⟨hspelling d hd, hdest d hd⟩⟩
  · rintro ⟨hchar, hfollow⟩
    exact ⟨hchar, fun d hd => ((mayFollow_helpDef_iff hchar).mp (hfollow d hd)).1,
      fun d hd => ((mayFollow_helpDef_iff hchar).mp (hfollow d hd)).2⟩

theorem grammar_addHelp (spec : GrammarSpec) :
    ({ spec with addHelp := true }).grammar = ({ spec with addHelp := false }).grammar.withHelpFlag := by
  rw [GrammarSpec.grammar, spec.defs_addHelp]
  rfl

/-- **With help the declarations build just if the grammar admits the help flag.** -/
theorem build_addHelp_iff {g' : Grammar} (h : ({ spec with addHelp := false }).build = .ok g) :
    ({ spec with addHelp := true }).build = .ok g' ↔ g.AdmitsHelp ∧ g.withHelpFlag = g' := by
  obtain ⟨hnew, hchecked, rfl⟩ := build_eq_ok.mp h
  have hrest := checkArgs_eq_ok.mp hchecked
  -- The other arguments have passed all checks but those against the help flag.
  rw [build_eq_ok, admitsHelp_iff, checkArgs_eq_ok, spec.defs_addHelp, consistent_cons, grammar_addHelp]
  constructor
  · rintro ⟨-, ⟨hsound, hfollow, -⟩, hgrammar⟩
    exact ⟨⟨hsound, hfollow⟩, hgrammar⟩
  · rintro ⟨⟨hsound, hfollow⟩, hgrammar⟩
    exact ⟨hnew, ⟨hsound, hfollow, hrest⟩, hgrammar⟩

theorem slots_withHelpFlag (g : Grammar) :
    g.withHelpFlag.slots = ⟨0, helpDef g.prefixChars.toList⟩ :: g.slots.map Slot.shift := by
  simp only [slots, withHelpFlag, List.zipIdx_cons', List.map_cons, List.map_map]
  rfl

theorem flagTable_withHelpFlag (g : Grammar) :
    g.withHelpFlag.flagTable =
      ["-h", "--help"].map (·, ⟨0, helpDef g.prefixChars.toList⟩) ++
        g.flagTable.map fun e => (e.1, e.2.shift) := by
  have hshift : ∀ s, flagEntries (Slot.shift s) = (flagEntries s).map fun e => (e.1, e.2.shift) := by
    intro s
    rw [flagEntries, flagEntries, List.map_map]
    rfl
  rw [flagTable, slots_withHelpFlag, List.flatMap_cons, List.flatMap_map, flagTable, List.map_flatMap]
  simp only [hshift]
  rfl

/-- **With the help flag before them all arguments move one place on.** -/
theorem registry_withHelpFlag (g : Grammar) :
    g.withHelpFlag.registry = g.registry.shift ["-h", "--help"] := by
  -- The help flag is entered under its spellings alone: it is no positional, and in no group.
  have hflag : (helpDef g.prefixChars.toList).isFlag = true := rfl
  have hpositionals : g.withHelpFlag.positionals = g.positionals.map Slot.shift := by
    rw [positionals, slots_withHelpFlag, List.filter_cons_of_neg (by simp [hflag]), List.filter_map]
    rfl
  have hdispatch : g.withHelpFlag.dispatch? = g.dispatch?.map Slot.shift := by
    rw [dispatch?, slots_withHelpFlag,
      List.find?_cons_of_neg (by simp [helpDef, ArgSpec.toDef_isDispatch]), List.find?_map]
    rfl
  have hgroups : ∀ k, g.withHelpFlag.groupMembers k = (g.groupMembers k).map Slot.shift := by
    intro k
    rw [groupMembers, slots_withHelpFlag, List.filter_cons_of_neg (by simp [helpDef, ArgSpec.toDef_group]),
      List.filter_map]
    rfl
  have hnegative : g.withHelpFlag.hasNegativeNumberFlags = g.hasNegativeNumberFlags := by
    have hown : isNegativeNumber "-h" = false ∧ isNegativeNumber "--help" = false := by decide
    simp [hasNegativeNumberFlags, flagTable_withHelpFlag, Function.comp_def, hown]
  have hcount : g.withHelpFlag.groups = g.groups := rfl
  simp [registry, Registry.shift, flagTable_withHelpFlag, hpositionals, hdispatch, hgroups, hnegative,
    hcount, Slot.shift, Function.comp_def]

/-- **Where a grammar admits the help flag, help comes before everything else.** If declarations build
without help, they build with it just if a hyphen is a prefix character, no flag is spelled `-h` or
`--help` and none has the destination of the help flag. What is built is the grammar with a flag without
values in front, and every argument one place further on. -/
theorem help_flag_comes_first (h : ({ spec with addHelp := false }).build = .ok g) :
    (∀ g', ({ spec with addHelp := true }).build = .ok g' ↔ g.AdmitsHelp ∧ g.withHelpFlag = g') ∧
      (helpDef g.prefixChars.toList).aliases = ["-h", "--help"] ∧
      (helpDef g.prefixChars.toList).arity = ⟨0, some 0⟩ ∧
      g.withHelpFlag.slots = ⟨0, helpDef g.prefixChars.toList⟩ :: g.slots.map Slot.shift ∧
      g.withHelpFlag.registry = g.registry.shift ["-h", "--help"] :=
  ⟨fun _ => build_addHelp_iff h, rfl, rfl, slots_withHelpFlag g, registry_withHelpFlag g⟩

/-- A command with flags in and outside of a group, a positional and a subcommand. -/
def fetching : GrammarSpec :=
  { prog := "fetch"
    prefixChars := "+-"
    items :=
      [.arg { name := some "remote" },
        .exclusive false
          [{ aliases := ["--quiet"], action := .storeTrue },
            { aliases := ["--verbose", "+v"], action := .count }],
        .subcommand "all" default,
        .arg { aliases := ["-1"] }] }

theorem fetching_with_help :
    ∃ g, fetching.build = .ok g ∧ ({ fetching with addHelp := true }).build = .ok g.withHelpFlag ∧
      g.registry = ⟨[("--quiet", 1), ("--verbose", 2), ("+v", 2), ("-1", 4)], [0, 3], some 3, [[1, 2]],
        true⟩ ∧
      g.withHelpFlag.registry = ⟨[("-h", 0), ("--help", 0), ("--quiet", 2), ("--verbose", 3), ("+v", 3),
        ("-1", 5)], [1, 4], some 4, [[2, 3]], true⟩ := by
  obtain ⟨g, hbuild, hregistry, hadmits⟩ :
      ∃ g, fetching.build = .ok g ∧
        g.registry = ⟨[("--quiet", 1), ("--verbose", 2), ("+v", 2), ("-1", 4)], [0, 3], some 3, [[1, 2]],
          true⟩ ∧ g.AdmitsHelp :=
    ⟨_, rfl, by decide, by decide, by decide, by decide⟩
  obtain ⟨hiff, -, -, -, hshifted⟩ := @help_flag_comes_first g fetching hbuild
  refine ⟨g, hbuild, (hiff _).mpr ⟨hadmits, rfl⟩, hregistry, ?_⟩
  rw [hshifted, hregistry]
  rfl

/-- A command whose flags do not begin with a hyphen. -/
def plusOnly : GrammarSpec :=
  { prog := "cmd"
    prefixChars := "+"
    items := [.arg { aliases := ["++verbose"], action := .storeTrue }] }

/-- A command with a flag of which nothing is left as a destination. -/
def lettered : GrammarSpec :=
  { prog := "cmd"
    prefixChars := "-h"
    items := [.arg { aliases := ["--"], action := .storeTrue }] }

/-- No flag has a spelling of the help flag, and none the destination `help`. -/
def LeavesHelp (g : Grammar) : Prop :=
  ∀ d ∈ g.args, ("-h" ∉ d.aliases ∧ "--help" ∉ d.aliases) ∧ (d.isFlag = true → d.dest ≠ "help")

/-- **The help flag may be refused where nothing else is called help**: if its own spellings do not begin
with a prefix character, and if nothing is left of them as a destination, as of another flag's. -/
theorem help_flag_is_refused :
    (∃ g, plusOnly.build = .ok g ∧ g.LeavesHelp ∧
      ({ plusOnly with addHelp := true }).build = .error (.invalidFlag "-h")) ∧
    ∃ g, lettered.build = .ok g ∧ g.LeavesHelp ∧
      ({ lettered with addHelp := true }).build = .error (.destConflict "") := by
  unfold LeavesHelp
  exact ⟨⟨_, rfl, by decide, rfl⟩, _, rfl, by decide, rfl⟩

end Grammar

end TabCompletion
