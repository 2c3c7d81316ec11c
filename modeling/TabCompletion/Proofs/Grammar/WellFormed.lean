import Mathlib.Logic.Relation
import TabCompletion.Proofs.Grammar.Registry

/-!
# What holds of every built grammar

The tables of a grammar say the same things in several places: a flag stands among the arguments and under
each of its spellings, a member of a group has the number of its group, and the group has it among its
members. `WellFormed` says that they agree with each other and with what was declared.

A grammar that was built is well-formed, and so is every grammar below it that a subcommand leads to
(`Grammar.build_wellFormed`).
-/

namespace TabCompletion

variable {g child : Grammar} {spec : GrammarSpec} {s t : Slot} {a : String}

namespace Grammar

def HasSubcommand (g child : Grammar) : Prop := ∃ name, (name, child) ∈ g.subcommands

end Grammar

/-- What a grammar built from `spec` is like. Arguments are known by their places. -/
structure WellFormed (spec : GrammarSpec) (g : Grammar) : Prop where
  declared : g.args = spec.defs
  filled : g.slots.foldl Registry.add (Registry.empty g.groups.length) = g.registry
  flag : ∀ a s, g.flag? a = some s ↔ g.args[s.index]? = some s.arg ∧ a ∈ s.arg.aliases
  spelling : ∀ d ∈ g.args, ∀ a ∈ d.aliases, a.toList.head?.any g.isPrefixChar = true
  positionals : ∀ s, s ∈ g.positionals ↔ g.args[s.index]? = some s.arg ∧ s.arg.isFlag = false
  increasing : (g.positionals.map (·.index)).Pairwise (· < ·)
  dispatch : ∀ s, g.dispatch? = some s ↔ g.args[s.index]? = some s.arg ∧ s.arg.isDispatch = true
  dispatch_isSome : g.dispatch?.isSome = true ↔ spec.subcommands ≠ []
  /-- The dispatch argument comes after what is declared before the first subcommand. -/
  dispatch_place : ∀ before name child after,
    spec.items = before ++ .subcommand name child :: after →
    (∀ item ∈ before, item.isSubcommand = false) →
    g.dispatch?.map (·.index) = some (spec.helpCount + (before.map SpecItem.argCount).sum)
  member : ∀ s k, s ∈ g.groupMembers k ↔ g.args[s.index]? = some s.arg ∧ s.arg.group = some k
  member_declared : ∀ k, (g.groupMembers k).map (·.arg) =
    ((exclusives spec.items).getD k []).map (·.toDef spec.prefixChars.toList (some k))
  group_lt : ∀ d ∈ g.args, ∀ k, d.group = some k → k < g.groups.length
  disjoint : ∀ j k, j ≠ k → ∀ s ∈ g.groupMembers j, ∀ t ∈ g.groupMembers k, s.index ≠ t.index
  dest : ∀ s ∈ g.slots, ∀ t ∈ g.slots, s.index ≠ t.index → s.arg.isFlag = true →
    t.arg.isFlag = true → s.arg.dest = t.arg.dest →
    s.arg.isReusable = true ∧ t.arg.isReusable = true
  arity : ∀ d ∈ g.args, ∀ most, d.arity.max = some most → d.arity.min ≤ most
  action : ∀ s ∈ g.positionals, s.arg.action = .store ∨ s.arg.action = .append
  negative : g.hasNegativeNumberFlags = true ↔
    ∃ d ∈ g.args, ∃ a ∈ d.aliases, isNegativeNumber a = true

/-- A grammar that building gives, from subcommands whose grammars were built in the same way. -/
inductive Built : Grammar → Prop where
  | intro {spec : GrammarSpec} {g : Grammar} (h : spec.build = .ok g)
      (below : ∀ e ∈ spec.subcommands, Built e.2) : Built g

namespace Grammar

/-! ## Places -/

theorem slots_increasing (g : Grammar) : g.slots.Pairwise (·.index < ·.index) := by
  have hplaces : g.slots.map (·.index) = List.range' 0 g.args.length := by
    rw [slots, List.map_map]
    exact List.zipIdx_map_snd 0 g.args
  rw [← List.pairwise_map, hplaces]
  exact List.pairwise_lt_range'

theorem positionals_increasing (g : Grammar) : (g.positionals.map (·.index)).Pairwise (· < ·) := by
  rw [List.pairwise_map]
  exact g.slots_increasing.filter _

/-! ## Arguments that were checked -/

theorem build_spelling (h : spec.build = .ok g) (hs : s ∈ g.slots) (ha : a ∈ s.arg.aliases) :
    a.toList.head?.any g.isPrefixChar = true :=
  (build_sound h hs).spelling a ha

/-- Two flags with one destination keep each other's values. -/
theorem build_dest (h : spec.build = .ok g) (hs : s ∈ g.slots) (ht : t ∈ g.slots)
    (hne : s.index ≠ t.index) (hsf : s.arg.isFlag = true) (htf : t.arg.isFlag = true)
    (hdest : s.arg.dest = t.arg.dest) : s.arg.isReusable = true ∧ t.arg.isReusable = true := by
  -- The later of the two was checked against the earlier one.
  rcases Nat.lt_or_gt_of_ne hne with hlt | hgt
  · exact (build_mayFollow h hs ht hlt).isReusable htf hsf hdest
  · exact ((build_mayFollow h ht hs hgt).isReusable hsf htf hdest.symm).symm

theorem build_action (h : spec.build = .ok g) (hs : s ∈ g.positionals) :
    s.arg.action = .store ∨ s.arg.action = .append := by
  obtain ⟨hslot, hflag⟩ := mem_positionals.mp hs
  cases hdispatch : s.arg.isDispatch with
  | false =>
      exact s.arg.action.suitsPositional_iff.mp ((build_sound h hslot).positional hflag hdispatch).2
  | true =>
      rw [(build_isDispatch h hslot hdispatch).1]
      exact Or.inl rfl

/-! ## Tables -/

theorem build_group_lt (h : spec.build = .ok g) {k : Nat} (hs : s ∈ g.slots)
    (hk : s.arg.group = some k) : k < g.groups.length := by
  -- Past the groups that are declared, a number has no members.
  by_contra hge
  have hempty : (exclusives spec.items).getD k [] = [] := by
    rw [List.getD_eq_getElem?_getD, List.getElem?_eq_none]
    · rfl
    · rw [← GrammarSpec.groupMarks_length, ← (build_fields h).2.1]
      exact Nat.le_of_not_lt hge
  have hmember : s.arg ∈ (g.groupMembers k).map (·.arg) :=
    List.mem_map_of_mem (mem_groupMembers.mpr ⟨hs, hk⟩)
  rw [build_groupMembers h, hempty] at hmember
  contradiction

theorem hasNegativeNumberFlags_iff :
    g.hasNegativeNumberFlags = true ↔ ∃ d ∈ g.args, ∃ a ∈ d.aliases, isNegativeNumber a = true := by
  rw [hasNegativeNumberFlags, List.any_eq_true]
  constructor
  · rintro ⟨⟨a, s⟩, hentry, hnegative⟩
    obtain ⟨hs, ha⟩ := mem_flagTable.mp hentry
    exact ⟨s.arg, arg_mem_args hs, a, ha, hnegative⟩
  · rintro ⟨d, hd, a, ha, hnegative⟩
    obtain ⟨s, hs, rfl⟩ := exists_slot hd
    exact ⟨(a, s), mem_flagTable.mpr ⟨hs, ha⟩, hnegative⟩

end Grammar

/-! ## Grammars and the grammars below them -/

/-- Building gives well-formed grammars, whatever the subcommands are. -/
theorem WellFormed.of_build (h : spec.build = .ok g) : WellFormed spec g := by
  constructor
  case declared => exact (Grammar.build_fields h).1
  case filled => exact Grammar.build_filled h
  case flag =>
    intro a s
    rw [← Grammar.mem_slots]
    exact (Grammar.build_spellingsDistinct h).flag?_eq_some_iff
  case spelling =>
    intro d hd a ha
    obtain ⟨s, hs, rfl⟩ := Grammar.exists_slot hd
    exact Grammar.build_spelling h hs ha
  case positionals =>
    intro s
    rw [← Grammar.mem_slots]
    exact Grammar.mem_positionals
  case increasing => exact g.positionals_increasing
  case dispatch =>
    intro s
    rw [← Grammar.mem_slots]
    exact Grammar.build_dispatch_eq_some_iff h
  case dispatch_isSome => exact Grammar.build_dispatch_isSome h
  case dispatch_place =>
    intro before name child after hitems hbefore
    rw [(Grammar.build_dispatch h hitems hbefore).1]
    rfl
  case member =>
    intro s k
    rw [← Grammar.mem_slots]
    exact Grammar.mem_groupMembers
  case member_declared => exact Grammar.build_groupMembers h
  case group_lt =>
    intro d hd k hk
    obtain ⟨s, hs, rfl⟩ := Grammar.exists_slot hd
    exact Grammar.build_group_lt h hs hk
  case disjoint =>
    intro j k hne s hs t ht heq
    obtain ⟨hs, hj⟩ := Grammar.mem_groupMembers.mp hs
    obtain ⟨ht, hk⟩ := Grammar.mem_groupMembers.mp ht
    obtain rfl := Grammar.slot_eq_of_index_eq hs ht heq
    exact hne (Option.some.inj (hj.symm.trans hk))
  case dest =>
    intro s hs t ht hne hsf htf hdest
    exact Grammar.build_dest h hs ht hne hsf htf hdest
  case arity =>
    intro d hd most hmax
    obtain ⟨s, hs, rfl⟩ := Grammar.exists_slot hd
    exact Grammar.build_min_le_max h hs hmax
  case action =>
    intro s hs
    exact Grammar.build_action h hs
  case negative => exact Grammar.hasNegativeNumberFlags_iff

namespace Built

theorem subcommand (h : Built g) (hsub : g.HasSubcommand child) : Built child := by
  obtain ⟨hbuild, below⟩ := h
  obtain ⟨name, hmem⟩ := hsub
  rw [Grammar.build_subcommands hbuild] at hmem
  exact below (name, child) hmem

theorem transGen (h : Built g) (hpath : Relation.TransGen Grammar.HasSubcommand g child) :
    Built child := by
  induction hpath with
  | single hsub => exact h.subcommand hsub
  | tail _ hsub ih => exact ih.subcommand hsub

end Built

/-- **Every built grammar is well-formed, and so are all grammars that its subcommands lead to.** -/
theorem Grammar.build_wellFormed (h : spec.build = .ok g)
    (hbelow : ∀ e ∈ spec.subcommands, Built e.2) :
    WellFormed spec g ∧
      ∀ child, Relation.TransGen Grammar.HasSubcommand g child →
        ∃ inner : GrammarSpec, inner.build = .ok child ∧ WellFormed inner child := by
  refine ⟨.of_build h, ?_⟩
  intro child hpath
  obtain ⟨hinner, -⟩ := (Built.intro h hbelow).transGen hpath
  exact ⟨_, hinner, .of_build hinner⟩

def adding : GrammarSpec :=
  { prog := "add"
    items := [.arg { name := some "name", nargs := some .oneOrMore }] }

/-- A command with a flag that is a negative number, two exclusive flags that count into one destination,
a subcommand, and a positional after it. -/
def storing (child : Grammar) : GrammarSpec :=
  { prog := "store"
    addHelp := true
    items :=
      [.arg { aliases := ["-1"], dest := some "one", action := .storeTrue },
        .exclusive false
          [{ aliases := ["--quiet", "-q"], dest := some "level", action := .count },
            { aliases := ["--verbose"], dest := some "level", action := .count }],
        .subcommand "add" child,
        .arg { name := some "path" }] }

theorem storing_wellFormed :
    ∃ c g, adding.build = .ok c ∧ (storing c).build = .ok g ∧
      g.registry =
        { flags := [("-h", 0), ("--help", 0), ("-1", 1), ("--quiet", 2), ("-q", 2), ("--verbose", 3)]
          positionals := [4, 5]
          dispatch := some 4
          groups := [[2, 3]]
          negativeNumbers := true } ∧
      WellFormed (storing c) g ∧ ∃ inner : GrammarSpec, inner.build = .ok c ∧ WellFormed inner c := by
  obtain ⟨c, g, hc, hg, hregistry, hsub⟩ : ∃ c g, adding.build = .ok c ∧ (storing c).build = .ok g ∧
      g.registry = _ ∧ g.subcommands = [("add", c)] := ⟨_, _, rfl, rfl, rfl, rfl⟩
  have hbelow : ∀ e ∈ (storing c).subcommands, Built e.2 := by
    intro e he
    obtain rfl := List.mem_singleton.mp he
    exact .intro hc (fun _ hnone => absurd hnone List.not_mem_nil)
  obtain ⟨hwf, hinner⟩ := Grammar.build_wellFormed hg hbelow
  have hchild : g.HasSubcommand c := ⟨"add", hsub ▸ List.mem_singleton_self _⟩
  exact ⟨c, g, hc, hg, hregistry, hwf, hinner c (.single hchild)⟩

end TabCompletion
