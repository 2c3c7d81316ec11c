import TabCompletion.Proofs.Grammar.Spellings
import TabCompletion.Proofs.Grammar.Usage

/-!
# Hidden arguments

Help is made from the arguments that are shown. `Grammar.withoutHidden` keeps only these, and has the
same usage line and the same help page (`usage_withoutHidden`, `helpPage_withoutHidden`), although its
arguments stand in other places. Two grammars that differ in hidden arguments only become the same one,
so their help is the same. Leaving an argument out of the declarations keeps the others and their checks
(`build_of_leavesOut`).

Main statement: `hidden_leaves_no_trace`.
-/

namespace TabCompletion

variable {g : Grammar} {spec : GrammarSpec} {items : List SpecItem} {d : ArgDef Grammar}

namespace Grammar

def withoutHidden (g : Grammar) : Grammar := { g with args := g.args.filter fun d => !d.hidden }

/-! ## What help is made from -/

theorem map_arg_filter_slots (g : Grammar) (p : ArgDef Grammar → Bool) :
    (g.slots.filter fun s => p s.arg).map (·.arg) = g.args.filter p := by
  rw [← map_arg_slots, List.filter_map]
  rfl

theorem map_arg_visibleFlags (g : Grammar) :
    g.visibleFlags.map (·.arg) = g.args.filter fun d => d.isFlag && !d.hidden :=
  g.map_arg_filter_slots fun d => d.isFlag && !d.hidden

theorem map_arg_visiblePositionals (g : Grammar) :
    g.visiblePositionals.map (·.arg) = g.args.filter fun d => !d.hidden && !d.isFlag := by
  rw [← map_arg_filter_slots, visiblePositionals, positionals, List.filter_filter]

theorem map_arg_shownMembers (g : Grammar) (k : Nat) :
    (g.shownMembers k).map (·.arg) =
      g.args.filter fun d => d.group == some k && (d.isFlag && !d.hidden) := by
  rw [← map_arg_filter_slots, shownMembers_eq, visibleFlags, List.filter_filter]
  rfl

/-- What picks no hidden argument picks the same without them. -/
theorem filter_withoutHidden {p : ArgDef Grammar → Bool} (hp : ∀ d, d.hidden = true → p d = false) :
    g.withoutHidden.args.filter p = g.args.filter p := by
  show (g.args.filter fun d => !d.hidden).filter p = g.args.filter p
  rw [List.filter_filter]
  apply List.filter_congr
  intro d _
  cases hd : d.hidden with
  | false => rw [Bool.not_false, Bool.and_true]
  | true => rw [hp d hd, Bool.false_and]

/-- The shown flags are those of the grammar without hidden arguments, in other places. -/
theorem visibleFlags_withoutHidden (g : Grammar) :
    g.withoutHidden.visibleFlags.map (·.arg) = g.visibleFlags.map (·.arg) := by
  rw [map_arg_visibleFlags, map_arg_visibleFlags]
  apply filter_withoutHidden
  simp +contextual

theorem visiblePositionals_withoutHidden (g : Grammar) :
    g.withoutHidden.visiblePositionals.map (·.arg) = g.visiblePositionals.map (·.arg) := by
  rw [map_arg_visiblePositionals, map_arg_visiblePositionals]
  apply filter_withoutHidden
  simp +contextual

theorem shownMembers_withoutHidden (g : Grammar) (k : Nat) :
    (g.withoutHidden.shownMembers k).map (·.arg) = (g.shownMembers k).map (·.arg) := by
  rw [map_arg_shownMembers, map_arg_shownMembers]
  apply filter_withoutHidden
  simp +contextual

/-! ## Help without them -/

theorem groupPart_withoutHidden (g : Grammar) (k : Nat) :
    g.withoutHidden.groupPart k = g.groupPart k := by
  have hparts : (g.withoutHidden.shownMembers k).map (·.arg.usagePart) =
      (g.shownMembers k).map (·.arg.usagePart) := by
    have hargs := congrArg (List.map ArgDef.usagePart) (g.shownMembers_withoutHidden k)
    simpa only [List.map_map, Function.comp_def] using hargs
  have hrequired : g.withoutHidden.groupRequired k = g.groupRequired k := rfl
  show (if g.withoutHidden.groupRequired k then _ else _) = _
  unfold groupPart
  rw [shownMembers, shownMembers] at hparts
  simp only [hparts, hrequired]

/-- The parts for flags depend on the arguments, not on their places. -/
theorem flagParts_congr {g' : Grammar} (hgroups : ∀ k, g'.groupPart k = g.groupPart k)
    {shown : List Nat} {flags flags' : List Slot} (hargs : flags'.map (·.arg) = flags.map (·.arg)) :
    g'.flagParts shown flags' = g.flagParts shown flags := by
  induction flags generalizing flags' shown with
  | nil =>
      rw [List.map_eq_nil_iff.mp hargs]
      rfl
  | cons s rest ih =>
      obtain ⟨s', rest', rfl, hs, hrest⟩ := List.map_eq_cons_iff.mp hargs
      simp only [flagParts, hs, hgroups, ih hrest]

theorem usageParts_withoutHidden (g : Grammar) : g.withoutHidden.usageParts = g.usageParts := by
  have hpositionals := congrArg (List.map ArgDef.valueNames) g.visiblePositionals_withoutHidden
  rw [List.map_map, List.map_map] at hpositionals
  rw [usageParts, usageParts, flagParts_congr g.groupPart_withoutHidden g.visibleFlags_withoutHidden]
  exact congrArg _ hpositionals

/-- **Hidden arguments do not show in the usage line.** -/
theorem usage_withoutHidden (g : Grammar) : g.withoutHidden.usage = g.usage := by
  rw [usage, usage, usageParts_withoutHidden]
  rfl

/-- **Hidden arguments do not show in the help page**, neither in its sections nor in its column. -/
theorem helpPage_withoutHidden (g : Grammar) : g.withoutHidden.helpPage = g.helpPage := by
  have hpositionals : (g.withoutHidden.visiblePositionals.flatMap fun s => HelpEntry.ofPositional s.arg) =
      g.visiblePositionals.flatMap fun s => HelpEntry.ofPositional s.arg := by
    have hargs := congrArg (List.flatMap HelpEntry.ofPositional) g.visiblePositionals_withoutHidden
    rwa [List.flatMap_map, List.flatMap_map] at hargs
  have hoptionals : (g.withoutHidden.visibleFlags.map fun s => HelpEntry.ofArg s.arg) =
      g.visibleFlags.map fun s => HelpEntry.ofArg s.arg := by
    have hargs := congrArg (List.map HelpEntry.ofArg) g.visibleFlags_withoutHidden
    rwa [List.map_map, List.map_map] at hargs
  simp only [helpPage, hpositionals, hoptionals, usage_withoutHidden]
  rfl

end Grammar

/-! ## Leaving a declaration out -/

/-- The second declarations are the first ones without one hidden argument. -/
inductive LeavesOut : List SpecItem → List SpecItem → Prop where
  | arg (before after : List SpecItem) (a : ArgSpec) (ha : a.hidden = true) :
      LeavesOut (before ++ .arg a :: after) (before ++ after)
  | member (before after : List SpecItem) (required : Bool) (members more : List ArgSpec)
      (a : ArgSpec) (ha : a.hidden = true) :
      LeavesOut (before ++ .exclusive required (members ++ a :: more) :: after)
        (before ++ .exclusive required (members ++ more) :: after)

/-- What passed its checks passes them where other arguments are left out. -/
theorem Consistent.sublist {prefixChars : List Char} {defs fewer : List (ArgDef Grammar)}
    (h : Consistent prefixChars defs) (hfewer : fewer.Sublist defs) : Consistent prefixChars fewer where
  sound d hd := h.sound d (hfewer.subset hd)
  pairwise := h.pairwise.sublist hfewer

namespace GrammarSpec

theorem subcommands_of_leavesOut (h : LeavesOut spec.items items) :
    ({ spec with items }).subcommands = spec.subcommands := by
  unfold subcommands
  show items.filterMap _ = spec.items.filterMap _
  generalize spec.items = declared at h
  cases h <;> simp

theorem groupMarks_of_leavesOut (h : LeavesOut spec.items items) :
    ({ spec with items }).groupMarks = spec.groupMarks := by
  unfold groupMarks
  show items.filterMap _ = spec.items.filterMap _
  generalize spec.items = declared at h
  cases h <;> simp

/-- Of the arguments that are declared one hidden one is missing, and the others are the same. -/
theorem defsFrom_of_leavesOut {items' : List SpecItem} (group : Nat) (dispatched : Bool)
    (h : LeavesOut items items') :
    ∃ earlier d later, spec.defsFrom group dispatched items = earlier ++ d :: later ∧
      spec.defsFrom group dispatched items' = earlier ++ later ∧ d.hidden = true := by
  cases h with
  | arg before after a ha =>
      obtain ⟨next, put, happend⟩ := spec.defsFrom_append group dispatched before
      exact ⟨_, a.toDef spec.prefixChars.toList none, _, happend _, happend _, ha⟩
  | member before after required members more a ha =>
      obtain ⟨next, put, happend⟩ := spec.defsFrom_append group dispatched before
      refine ⟨spec.defsFrom group dispatched before ++
        members.map (·.toDef spec.prefixChars.toList (some next)),
        a.toDef spec.prefixChars.toList (some next),
        more.map (·.toDef spec.prefixChars.toList (some next)) ++ spec.defsFrom (next + 1) put after,
        ?_, ?_, ha⟩
      · simp [happend, defsFrom]
      · simp [happend, defsFrom]

theorem defs_of_leavesOut (h : LeavesOut spec.items items) :
    ∃ earlier d later, spec.defs = earlier ++ d :: later ∧
      ({ spec with items }).defs = earlier ++ later ∧ d.hidden = true := by
  have hdispatch : ({ spec with items }).dispatchDef = spec.dispatchDef := by
    rw [dispatchDef, subcommands_of_leavesOut h]
    rfl
  have hdeclared : ({ spec with items }).defsFrom 0 false items = spec.defsFrom 0 false items :=
    defsFrom_congr rfl hdispatch
  obtain ⟨earlier, d, later, hdefs, hfewer, hd⟩ := @defsFrom_of_leavesOut spec spec.items items 0 false h
  rw [← hdeclared] at hfewer
  unfold defs
  simp only [hdefs, hfewer]
  split
  · exact ⟨_ :: earlier, d, later, rfl, rfl, hd⟩
  · exact ⟨earlier, d, later, rfl, rfl, hd⟩

end GrammarSpec

namespace Grammar

/-- **Without a hidden argument the declarations still build**, and the grammar without its hidden
arguments is the same. -/
theorem build_of_leavesOut (h : spec.build = .ok g) (hitems : LeavesOut spec.items items) :
    ∃ g', ({ spec with items }).build = .ok g' ∧ g'.withoutHidden = g.withoutHidden := by
  obtain ⟨hnew, hchecked, rfl⟩ := build_eq_ok.mp h
  obtain ⟨earlier, d, later, hdefs, hfewer, hd⟩ := GrammarSpec.defs_of_leavesOut hitems
  refine ⟨_, build_eq_ok.mpr ⟨?_, ?_, rfl⟩, ?_⟩
  · rw [GrammarSpec.subcommands_of_leavesOut hitems]
    exact hnew
  · have hconsistent := checkArgs_eq_ok.mp hchecked
    rw [hdefs] at hconsistent
    rw [hfewer]
    apply checkArgs_eq_ok.mpr
    apply hconsistent.sublist
    exact (List.sublist_cons_self d later).append_left earlier
  · have hargs : (earlier ++ d :: later).filter (fun d => !d.hidden) =
        (earlier ++ later).filter fun d => !d.hidden := by
      simp [hd]
    simp only [withoutHidden, GrammarSpec.grammar, hdefs, hfewer, hargs,
      GrammarSpec.groupMarks_of_leavesOut hitems]

/-- **Hidden arguments leave no trace in help.** If declarations build, they build without any one of
the hidden arguments, and the usage line and the help page stay the same. -/
theorem hidden_leaves_no_trace (h : spec.build = .ok g) (hitems : LeavesOut spec.items items) :
    ∃ g', ({ spec with items }).build = .ok g' ∧ g'.usage = g.usage ∧ g'.helpPage = g.helpPage := by
  obtain ⟨g', hbuild, hsame⟩ := build_of_leavesOut h hitems
  refine ⟨g', hbuild, ?_, ?_⟩
  · rw [← usage_withoutHidden g', hsame, usage_withoutHidden]
  · rw [← helpPage_withoutHidden g', hsame, helpPage_withoutHidden]

/-- A command with a group whose first member is hidden, and with a hidden positional. -/
def tracing : GrammarSpec :=
  { prog := "find"
    items :=
      [.exclusive true
          [{ aliases := ["--trace-everything"], action := .storeTrue, hidden := true },
            { aliases := ["--all"], action := .storeTrue, help := some "find all" }],
        .arg { name := some "legacy", hidden := true },
        .arg { name := some "name", help := some "what to find" }] }

/-- The same command without the flag that is hidden. -/
def untraced : List SpecItem :=
  [.exclusive true [{ aliases := ["--all"], action := .storeTrue, help := some "find all" }],
    .arg { name := some "legacy", hidden := true },
    .arg { name := some "name", help := some "what to find" }]

theorem trace_is_not_shown :
    ∃ g g', tracing.build = .ok g ∧ ({ tracing with items := untraced }).build = .ok g' ∧
      g'.args.length + 1 = g.args.length ∧ g.usage = "usage: find (--all) name" ∧
      g'.usage = g.usage ∧ g'.helpPage = g.helpPage := by
  obtain ⟨g, hbuild, hlength, husage⟩ :
      ∃ g, tracing.build = .ok g ∧ g.args.length = 4 ∧ g.usage = "usage: find (--all) name" :=
    ⟨_, rfl, rfl, by decide⟩
  have hitems : LeavesOut tracing.items untraced := .member [] _ true [] _ _ rfl
  obtain ⟨g', hbuild', husage', hpage⟩ := hidden_leaves_no_trace hbuild hitems
  have hlength' : g'.args.length = 3 := by
    cases hbuild'
    rfl
  exact ⟨g, g', hbuild, hbuild', by rw [hlength, hlength'], husage, husage', hpage⟩

end Grammar

end TabCompletion
