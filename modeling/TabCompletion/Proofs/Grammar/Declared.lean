import Mathlib.Algebra.GroupWithZero.Nat
import TabCompletion.Grammar.Builder
import TabCompletion.Proofs.Grammar.Slots

/-!
# The arguments that declarations stand for

Building a grammar puts the declared arguments one after the other, those of an exclusive group under
the number of the group (`build_groupMembers`), and one dispatch argument where the first subcommand is
declared (`build_dispatch`).
-/

namespace TabCompletion

variable {g : Grammar} {spec : GrammarSpec} {d : ArgDef Grammar} {s : Slot}
  {items before after : List SpecItem} {group : Nat} {dispatched : Bool}

/-! ## Declarations -/

namespace SpecItem

def isSubcommand : SpecItem → Bool
  | subcommand _ _ => true
  | _ => false

/-- How many arguments are declared, other than the dispatch argument. -/
def argCount : SpecItem → Nat
  | arg _ => 1
  | exclusive _ members => members.length
  | subcommand _ _ => 0

def members? : SpecItem → Option (List ArgSpec)
  | exclusive _ members => some members
  | _ => none

end SpecItem

def exclusives (items : List SpecItem) : List (List ArgSpec) := items.filterMap SpecItem.members?

theorem ArgSpec.toDef_group (a : ArgSpec) (prefixChars : List Char) (group : Option Nat) :
    (a.toDef prefixChars group).group = group := rfl

theorem ArgSpec.toDef_isDispatch (a : ArgSpec) (prefixChars : List Char) (group : Option Nat) :
    (a.toDef prefixChars group).isDispatch = false := by
  unfold ArgSpec.toDef ArgDef.isDispatch
  cases a.name <;> rfl

namespace GrammarSpec

/-- The arguments that declarations put: those they declare, whose groups are numbered from `group` on,
and the dispatch argument where it is still to come and a subcommand is declared. -/
inductive Puts (spec : GrammarSpec) (group : Nat) (dispatched : Bool) (items : List SpecItem) :
    ArgDef Grammar → Prop where
  | declared (a : ArgSpec) (own : Option Nat) (hown : ∀ k, own = some k → group ≤ k) :
      Puts spec group dispatched items (a.toDef spec.prefixChars.toList own)
  | dispatch (hpending : dispatched = false) (hsub : ∃ item ∈ items, item.isSubcommand = true) :
      Puts spec group dispatched items spec.dispatchDef

/-- What is put after a declaration is put with it. -/
theorem Puts.cons {later : Nat} {put : Bool} {item : SpecItem} (h : spec.Puts later put items d)
    (hle : group ≤ later) (hput : put = false → dispatched = false) :
    spec.Puts group dispatched (item :: items) d := by
  cases h with
  | declared a own hown => exact .declared a own fun k hk => Nat.le_trans hle (hown k hk)
  | dispatch hpending hsub =>
      obtain ⟨i, hi, his⟩ := hsub
      exact .dispatch (hput hpending) ⟨i, List.mem_cons_of_mem _ hi, his⟩

theorem puts_of_mem_defsFrom (hd : d ∈ spec.defsFrom group dispatched items) :
    spec.Puts group dispatched items d := by
  induction items generalizing group dispatched with
  | nil => simp [defsFrom] at hd
  | cons item rest ih =>
      cases item with
      | arg a =>
          rw [defsFrom, List.mem_cons] at hd
          rcases hd with rfl | hd
          · exact .declared a none (by simp)
          · exact (ih hd).cons (Nat.le_refl _) id
      | exclusive required members =>
          rw [defsFrom, List.mem_append, List.mem_map] at hd
          rcases hd with ⟨a, -, rfl⟩ | hd
          · exact .declared a (some group) (by simp)
          · exact (ih hd).cons (Nat.le_succ _) id
      | subcommand name child =>
          rw [defsFrom] at hd
          split at hd
          · exact (ih hd).cons (Nat.le_refl _) (by simp)
          · next hput =>
              rcases List.mem_cons.mp hd with rfl | hd
              · exact .dispatch (by simpa using hput) ⟨_, List.mem_cons_self, rfl⟩
              · exact (ih hd).cons (Nat.le_refl _) (by simp)

/-- Which arguments are declared depends on nothing but the declarations, the prefix characters and the
dispatch argument. -/
theorem defsFrom_congr {other : GrammarSpec} (hchars : other.prefixChars = spec.prefixChars)
    (hdispatch : other.dispatchDef = spec.dispatchDef) :
    other.defsFrom group dispatched items = spec.defsFrom group dispatched items := by
  induction items generalizing group dispatched with
  | nil => rfl
  | cons item rest ih => cases item <;> simp only [defsFrom, hchars, hdispatch, ih]

/-- What follows some declarations puts its arguments behind theirs. -/
theorem defsFrom_append (spec : GrammarSpec) (group : Nat) (dispatched : Bool)
    (before : List SpecItem) :
    ∃ next put, ∀ after, spec.defsFrom group dispatched (before ++ after) =
      spec.defsFrom group dispatched before ++ spec.defsFrom next put after := by
  induction before generalizing group dispatched with
  | nil => exact ⟨group, dispatched, fun _ => rfl⟩
  | cons item rest ih =>
      cases item with
      | arg a =>
          obtain ⟨next, put, hrest⟩ := ih group dispatched
          exact ⟨next, put, fun after => by simp [defsFrom, hrest]⟩
      | exclusive required members =>
          obtain ⟨next, put, hrest⟩ := ih (group + 1) dispatched
          exact ⟨next, put, fun after => by simp [defsFrom, hrest]⟩
      | subcommand name child =>
          obtain ⟨next, put, hrest⟩ := ih group true
          refine ⟨next, put, fun after => ?_⟩
          cases dispatched <;> simp [defsFrom, hrest]

/-! ## The dispatch argument -/

/-- Past the first subcommand, and where there is none, no dispatch argument is put. -/
theorem isDispatch_of_mem_defsFrom
    (h : dispatched = true ∨ ∀ item ∈ items, item.isSubcommand = false)
    (hd : d ∈ spec.defsFrom group dispatched items) : d.isDispatch = false := by
  cases puts_of_mem_defsFrom hd with
  | declared a own => exact a.toDef_isDispatch _ _
  | dispatch hpending hsub =>
      obtain ⟨item, hitem, hsub⟩ := hsub
      rcases h with hput | hnone
      · simp [hput] at hpending
      · simp [hnone item hitem] at hsub

/-- The dispatch argument comes after the arguments declared before the first subcommand. -/
theorem defsFrom_place {name : String} {child : Grammar}
    (hbefore : ∀ item ∈ before, item.isSubcommand = false) :
    ∃ earlier later, spec.defsFrom group false (before ++ .subcommand name child :: after) =
        earlier ++ spec.dispatchDef :: later ∧
      earlier.length = (before.map SpecItem.argCount).sum ∧
      ∀ d ∈ earlier ++ later, d.isDispatch = false := by
  -- By induction on what is declared before; the number of the next group is of no account.
  induction before generalizing group with
  | nil =>
      refine ⟨[], spec.defsFrom group true after, rfl, rfl, ?_⟩
      intro d hd
      exact isDispatch_of_mem_defsFrom (Or.inl rfl) hd
  | cons item rest ih =>
      have hrest : ∀ item ∈ rest, item.isSubcommand = false :=
        fun item hitem => hbefore item (List.mem_cons_of_mem _ hitem)
      cases item with
      | arg a =>
          obtain ⟨earlier, later, hdefs, hlength, hnone⟩ := @ih group hrest
          refine ⟨a.toDef spec.prefixChars.toList none :: earlier, later, ?_, ?_, ?_⟩
          · rw [List.cons_append, defsFrom, hdefs]
            rfl
          · simp [SpecItem.argCount, hlength, Nat.add_comm]
          · intro d hd
            rcases List.mem_cons.mp hd with rfl | hd
            · exact a.toDef_isDispatch _ _
            · exact hnone d hd
      | exclusive required members =>
          obtain ⟨earlier, later, hdefs, hlength, hnone⟩ := @ih (group + 1) hrest
          refine ⟨members.map (·.toDef spec.prefixChars.toList (some group)) ++ earlier, later, ?_, ?_,
            ?_⟩
          · rw [List.cons_append, defsFrom, hdefs, List.append_assoc]
          · simp [SpecItem.argCount, hlength]
          · intro d hd
            rw [List.append_assoc, List.mem_append, List.mem_map] at hd
            rcases hd with ⟨a, -, rfl⟩ | hd
            · exact a.toDef_isDispatch _ _
            · exact hnone d hd
      | subcommand name child =>
          exact absurd (hbefore _ List.mem_cons_self) (by simp [SpecItem.isSubcommand])

/-! ## Exclusive groups -/

theorem le_group_of_mem_defsFrom {k : Nat} (hd : d ∈ spec.defsFrom group dispatched items)
    (hk : d.group = some k) : group ≤ k := by
  cases puts_of_mem_defsFrom hd with
  | declared a own hown => exact hown k hk
  | dispatch => contradiction

/-- The arguments of a group are the members that it was declared with. -/
theorem filter_group_defsFrom (k : Nat) :
    (spec.defsFrom group dispatched items).filter (·.group == some (group + k)) =
      ((exclusives items).getD k []).map
        (·.toDef spec.prefixChars.toList (some (group + k))) := by
  induction items generalizing group dispatched k with
  | nil => simp [defsFrom, exclusives]
  | cons item rest ih =>
      cases item with
      | arg a =>
          rw [defsFrom, List.filter_cons_of_neg (by simp [ArgSpec.toDef_group]), ih]
          rfl
      | exclusive required members =>
          have hexcl : exclusives (.exclusive required members :: rest) =
              members :: exclusives rest := rfl
          rw [defsFrom, List.filter_append, hexcl]
          cases k with
          | zero =>
              -- This is the group itself; those declared later have higher numbers.
              have hall : ∀ e ∈ members.map
                  (ArgSpec.toDef · spec.prefixChars.toList (some group)),
                  (e.group == some (group + 0)) = true := by
                intro e he
                obtain ⟨a, -, rfl⟩ := List.mem_map.mp he
                simp [ArgSpec.toDef_group]
              have hnone : ∀ e ∈ spec.defsFrom (group + 1) dispatched rest,
                  ¬(e.group == some (group + 0)) = true := by
                intro e he heq
                have := le_group_of_mem_defsFrom he (beq_iff_eq.mp heq)
                omega
              rw [List.filter_eq_self.mpr hall, List.filter_eq_nil_iff.mpr hnone, List.append_nil]
              rfl
          | succ k =>
              have hnone : ∀ e ∈ members.map
                  (ArgSpec.toDef · spec.prefixChars.toList (some group)),
                  ¬(e.group == some (group + (k + 1))) = true := by
                intro e he
                obtain ⟨a, -, rfl⟩ := List.mem_map.mp he
                simp [ArgSpec.toDef_group]
              have hk : group + (k + 1) = group + 1 + k := by omega
              rw [List.filter_eq_nil_iff.mpr hnone, List.nil_append, hk, ih]
              rfl
      | subcommand name child =>
          have hexcl : exclusives (.subcommand name child :: rest) = exclusives rest := rfl
          rw [defsFrom, hexcl]
          split
          · exact ih k
          · rw [List.filter_cons_of_neg (by simp [dispatchDef]), ih]

theorem exists_first_subcommand (h : ∃ item ∈ items, item.isSubcommand = true) :
    ∃ before name child after, items = before ++ .subcommand name child :: after ∧
      ∀ item ∈ before, item.isSubcommand = false := by
  obtain ⟨item, hitem⟩ := Option.isSome_iff_exists.mp (List.find?_isSome.mpr h)
  obtain ⟨hsub, before, after, hitems, hbefore⟩ := List.find?_eq_some_iff_append.mp hitem
  cases item with
  | arg | exclusive => contradiction
  | subcommand name child => exact ⟨before, name, child, after, hitems, by simpa using hbefore⟩

/-! ## All declarations -/

/-- How many arguments come before all declared ones: the help flag, if there is one. -/
def helpCount (spec : GrammarSpec) : Nat := if spec.addHelp then 1 else 0

theorem puts_of_mem_defs (hd : d ∈ spec.defs) : spec.Puts 0 false spec.items d := by
  unfold defs at hd
  extract_lets declared at hd
  split at hd
  · rcases List.mem_cons.mp hd with rfl | hd
    · exact .declared .helpFlag none (by simp)
    · exact puts_of_mem_defsFrom hd
  · exact puts_of_mem_defsFrom hd

theorem dispatch_of_mem_defs (hd : d ∈ spec.defs) (hdispatch : d.isDispatch = true) :
    d = spec.dispatchDef ∧ ∃ item ∈ spec.items, item.isSubcommand = true := by
  cases puts_of_mem_defs hd with
  | declared a own => simp [a.toDef_isDispatch] at hdispatch
  | dispatch _ hsub => exact ⟨rfl, hsub⟩

theorem defs_place {name : String} {child : Grammar}
    (hitems : spec.items = before ++ .subcommand name child :: after)
    (hbefore : ∀ item ∈ before, item.isSubcommand = false) :
    ∃ earlier later, spec.defs = earlier ++ spec.dispatchDef :: later ∧
      earlier.length = spec.helpCount + (before.map SpecItem.argCount).sum ∧
      ∀ d ∈ earlier ++ later, d.isDispatch = false := by
  obtain ⟨earlier, later, hdefs, hlength, hnone⟩ := @defsFrom_place spec before after 0 _ _ hbefore
  rw [← hitems] at hdefs
  unfold defs helpCount
  extract_lets declared
  split
  · refine ⟨ArgSpec.helpFlag.toDef spec.prefixChars.toList none :: earlier, later, ?_, ?_, ?_⟩
    · rw [List.cons_append, ← hdefs]
    · rw [List.length_cons, hlength, Nat.add_comm]
    · intro d hd
      rcases List.mem_cons.mp hd with rfl | hd
      · exact ArgSpec.helpFlag.toDef_isDispatch _ _
      · exact hnone d hd
  · exact ⟨earlier, later, hdefs, by rw [hlength, Nat.zero_add], hnone⟩

theorem filter_group_defs (k : Nat) :
    spec.defs.filter (·.group == some k) =
      ((exclusives spec.items).getD k []).map (·.toDef spec.prefixChars.toList (some k)) := by
  have hdeclared := @filter_group_defsFrom spec spec.items 0 false k
  rw [Nat.zero_add] at hdeclared
  unfold defs
  extract_lets declared
  split
  · rw [List.filter_cons_of_neg (by simp [ArgSpec.toDef_group]), hdeclared]
  · exact hdeclared

theorem groupMarks_length : spec.groupMarks.length = (exclusives spec.items).length := by
  unfold groupMarks exclusives
  induction spec.items with
  | nil => rfl
  | cons item rest ih =>
      cases item with
      | arg | subcommand => exact ih
      | exclusive => exact congrArg Nat.succ ih

theorem subcommands_ne_nil_iff :
    spec.subcommands ≠ [] ↔ ∃ item ∈ spec.items, item.isSubcommand = true := by
  unfold subcommands
  induction spec.items with
  | nil => simp
  | cons item rest ih =>
      cases item with
      | arg | exclusive => simpa [SpecItem.isSubcommand] using ih
      | subcommand => simp [SpecItem.isSubcommand]

end GrammarSpec

/-! ## Built grammars -/

/-- The grammar of the declarations, if they are in order. -/
def GrammarSpec.grammar (spec : GrammarSpec) : Grammar :=
  { prog := spec.prog
    description := spec.description
    epilog := spec.epilog
    prefixChars := spec.prefixChars
    allowAbbrev := spec.allowAbbrev
    args := spec.defs
    groups := spec.groupMarks }

namespace Grammar

/-- **Building succeeds just if no subcommand is repeated and all arguments pass their checks.** -/
theorem build_eq_ok :
    spec.build = .ok g ↔
      GrammarSpec.firstRepeated [] (spec.subcommands.map (·.1)) = none ∧
        checkArgs spec.prefixChars.toList [] spec.defs = .ok () ∧ spec.grammar = g := by
  unfold GrammarSpec.build
  cases GrammarSpec.firstRepeated [] (spec.subcommands.map (·.1)) with
  | some name => simp
  | none =>
      cases checkArgs spec.prefixChars.toList [] spec.defs with
      | error e => simp
      | ok u => simp [GrammarSpec.grammar]

theorem build_fields (h : spec.build = .ok g) :
    g.args = spec.defs ∧ g.groups = spec.groupMarks ∧ g.prefixChars = spec.prefixChars := by
  obtain ⟨-, -, rfl⟩ := build_eq_ok.mp h
  exact ⟨rfl, rfl, rfl⟩

theorem map_arg_slots (g : Grammar) : g.slots.map (·.arg) = g.args := by
  rw [slots, List.map_map]
  exact List.zipIdx_map_fst 0 g.args

/-- **The members of a group are the arguments it was declared with.** -/
theorem build_groupMembers (h : spec.build = .ok g) (k : Nat) :
    (g.groupMembers k).map (·.arg) =
      ((exclusives spec.items).getD k []).map (·.toDef spec.prefixChars.toList (some k)) := by
  rw [← GrammarSpec.filter_group_defs, ← (build_fields h).1, ← map_arg_slots, List.filter_map]
  rfl

/-- Arguments in their places, the first of which is the place `n`. -/
def placed (args : List (ArgDef Grammar)) (n : Nat) : List Slot :=
  (args.zipIdx n).map fun p => ⟨p.2, p.1⟩

theorem arg_mem_of_mem_placed {args : List (ArgDef Grammar)} {n : Nat} (h : s ∈ placed args n) :
    s.arg ∈ args := by
  obtain ⟨p, hp, rfl⟩ := List.mem_map.mp h
  exact List.fst_mem_of_mem_zipIdx hp

theorem slots_of_args {earlier later : List (ArgDef Grammar)} (h : g.args = earlier ++ d :: later) :
    g.slots = placed earlier 0 ++ ⟨earlier.length, d⟩ :: placed later (earlier.length + 1) := by
  simp [slots, placed, h, List.zipIdx_append, List.zipIdx_cons]

/-- **The dispatch argument stands where the first subcommand is declared, and is the only one.** -/
theorem build_dispatch {name : String} {child : Grammar} (h : spec.build = .ok g)
    (hitems : spec.items = before ++ .subcommand name child :: after)
    (hbefore : ∀ item ∈ before, item.isSubcommand = false) :
    g.dispatch? = some ⟨spec.helpCount + (before.map SpecItem.argCount).sum, spec.dispatchDef⟩ ∧
      ∀ t ∈ g.slots, t.arg.isDispatch = true → g.dispatch? = some t := by
  obtain ⟨earlier, later, hdefs, hlength, hnone⟩ := GrammarSpec.defs_place hitems hbefore
  rw [← (build_fields h).1] at hdefs
  have hslots := slots_of_args hdefs
  have hother : ∀ l n, l ⊆ earlier ++ later → ∀ t ∈ placed l n, t.arg.isDispatch = false :=
    fun l n hl t ht => hnone t.arg (hl (arg_mem_of_mem_placed ht))
  have hearlier := hother earlier 0 (List.subset_append_left _ _)
  have hlater := hother later (earlier.length + 1) (List.subset_append_right _ _)
  rw [← hlength]
  have hfound : g.dispatch? = some ⟨earlier.length, spec.dispatchDef⟩ := by
    rw [dispatch?, hslots, List.find?_append, List.find?_eq_none.mpr (by simpa using hearlier)]
    rfl
  refine ⟨hfound, ?_⟩
  intro t ht hdispatch
  rw [hslots] at ht
  rcases List.mem_append.mp ht with ht | ht
  · simp [hearlier t ht] at hdispatch
  · rcases List.mem_cons.mp ht with rfl | ht
    · exact hfound
    · simp [hlater t ht] at hdispatch

theorem build_isDispatch (h : spec.build = .ok g) (hs : s ∈ g.slots)
    (hdispatch : s.arg.isDispatch = true) :
    s.arg = spec.dispatchDef ∧ ∃ item ∈ spec.items, item.isSubcommand = true := by
  apply GrammarSpec.dispatch_of_mem_defs _ hdispatch
  rw [← (build_fields h).1]
  exact arg_mem_args hs

/-- Declared subcommands have a dispatch argument, and only one. -/
theorem build_dispatch_of_subcommand (h : spec.build = .ok g)
    (hsub : ∃ item ∈ spec.items, item.isSubcommand = true) :
    ∃ i, g.dispatch? = some ⟨i, spec.dispatchDef⟩ ∧
      ∀ t ∈ g.slots, t.arg.isDispatch = true → g.dispatch? = some t := by
  obtain ⟨before, name, child, after, hitems, hbefore⟩ := GrammarSpec.exists_first_subcommand hsub
  exact ⟨_, build_dispatch h hitems hbefore⟩

theorem build_dispatch_eq_some_iff (h : spec.build = .ok g) :
    g.dispatch? = some s ↔ s ∈ g.slots ∧ s.arg.isDispatch = true := by
  constructor
  · intro hs
    exact ⟨List.mem_of_find?_eq_some hs, by simpa using List.find?_some hs⟩
  · rintro ⟨hs, hdispatch⟩
    obtain ⟨i, -, honly⟩ := build_dispatch_of_subcommand h (build_isDispatch h hs hdispatch).2
    exact honly s hs hdispatch

theorem build_dispatch_isSome (h : spec.build = .ok g) :
    g.dispatch?.isSome = true ↔ spec.subcommands ≠ [] := by
  rw [GrammarSpec.subcommands_ne_nil_iff]
  constructor
  · intro hsome
    obtain ⟨t, ht⟩ := Option.isSome_iff_exists.mp hsome
    obtain ⟨hslot, hdispatch⟩ := (build_dispatch_eq_some_iff h).mp ht
    exact (build_isDispatch h hslot hdispatch).2
  · intro hsub
    obtain ⟨i, hfound, -⟩ := build_dispatch_of_subcommand h hsub
    rw [hfound]
    rfl

theorem build_subcommands (h : spec.build = .ok g) : g.subcommands = spec.subcommands := by
  by_cases hsub : ∃ item ∈ spec.items, item.isSubcommand = true
  · obtain ⟨i, hfound, -⟩ := build_dispatch_of_subcommand h hsub
    rw [subcommands, hfound]
    rfl
  · have hnone : g.dispatch? = none := by
      have hiff := (build_dispatch_isSome h).trans GrammarSpec.subcommands_ne_nil_iff
      simpa using mt hiff.mp hsub
    have hempty : spec.subcommands = [] := by
      simpa using mt GrammarSpec.subcommands_ne_nil_iff.mp hsub
    rw [subcommands, hnone, hempty]

end Grammar

end TabCompletion
