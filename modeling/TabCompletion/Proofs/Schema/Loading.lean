import Mathlib.Data.List.Forall2
import TabCompletion.Proofs.Grammar.Declared
import TabCompletion.Proofs.Schema.Arrangement

/-!
# Grammars built from schemas

Building a command makes a declaration of each leader (`itemsFrom_declares`), and each declaration
puts the arguments of its block into the grammar (`defsFrom_stands`). So the arguments of the
grammar are the declared ones in their arrangement, after the help flag and before the dispatch
argument (`Lays`), and this is so for the commands at every depth (`build_loads`).
-/

namespace TabCompletion.Schema

variable {sources : Sources} {o : Outline} {c : Command} {g : Grammar} {p : Arg × Nat}
  {d : ArgDef Grammar} {leaders : List (Arg × Nat)} {items : List SpecItem}
  {subs : List (String × Grammar)} {name : String}

/-! ## Results -/

theorem bind_eq_ok {ε α β : Type} {x : Except ε α} {f : α → Except ε β} {b : β} :
    (x >>= f) = .ok b ↔ ∃ a, x = .ok a ∧ f a = .ok b := by
  cases x with
  | error e => simp [bind, Except.bind]
  | ok a => simp [bind, Except.bind]

theorem forall₂_of_mapM {ε α β : Type} {f : α → Except ε β} {as : List α} {bs : List β}
    (h : as.mapM f = .ok bs) : List.Forall₂ (fun a b => f a = .ok b) as bs := by
  induction as generalizing bs with
  | nil =>
      cases h
      exact .nil
  | cons a as ih =>
      rw [List.mapM_cons] at h
      obtain ⟨b, hb, h⟩ := bind_eq_ok.mp h
      obtain ⟨bs', hbs', h⟩ := bind_eq_ok.mp h
      cases h
      exact .cons hb (ih hbs')

/-! ## What is declared -/

/-- What is declared where a leader stands: the argument, or all members of its group. -/
inductive Declares (sources : Sources) (o : Outline) : Arg × Nat → SpecItem → Prop where
  | arg {p : Arg × Nat} {spec : ArgSpec} (hgroup : p.1.group = none)
      (hspec : p.1.toSpec sources = .ok spec) : Declares sources o p (.arg spec)
  | exclusive {p : Arg × Nat} {name : String} {specs : List ArgSpec}
      (hgroup : p.1.group = some name)
      (hspecs : List.Forall₂ (fun q spec => q.1.toSpec sources = .ok spec) (o.members name) specs) :
      Declares sources o p (.exclusive (o.isRequired name) specs)

theorem Outline.map_fst_members (o : Outline) (name : String) :
    (o.members name).map (·.1) = o.membersOf name := by
  have hargs : o.places.map (·.1) = o.args := List.zipIdx_map_fst 0 o.args
  rw [membersOf, ← hargs, List.filter_map]
  rfl

/-- Looking at one more argument declares what stands there, unless its group was declared before.
Either way its group is declared then. -/
theorem itemsFrom_cons {rest : List Arg} {declared : List String} {a : Arg} (place : Nat)
    (h : o.itemsFrom sources declared (a :: rest) = .ok items) :
    ∃ declared', (∀ n, n ∈ declared' ↔ n ∈ declared ∨ a.group = some n) ∧
      (((∀ n, a.group = some n → n ∉ declared) ∧ ∃ item items', items = item :: items' ∧
          Declares sources o (a, place) item ∧ o.itemsFrom sources declared' rest = .ok items') ∨
        (∃ n, a.group = some n ∧ n ∈ declared) ∧ o.itemsFrom sources declared' rest = .ok items) := by
  rw [Outline.itemsFrom] at h
  cases hgroup : a.group with
  | none =>
      simp only [hgroup] at h
      obtain ⟨spec, hspec, h⟩ := bind_eq_ok.mp h
      obtain ⟨items', hitems', h⟩ := bind_eq_ok.mp h
      cases h
      refine ⟨declared, by simp, Or.inl ⟨by simp, _, items', rfl, .arg hgroup hspec, hitems'⟩⟩
  | some name =>
      simp only [hgroup] at h
      split at h
      · next hin =>
          have hin : name ∈ declared := by simpa using hin
          refine ⟨declared, ?_, Or.inr ⟨⟨name, rfl, hin⟩, h⟩⟩
          intro n
          rw [Option.some.injEq, or_iff_left_of_imp]
          intro heq
          exact heq ▸ hin
      · next hin =>
          have hin : name ∉ declared := by simpa using hin
          obtain ⟨specs, hspecs, h⟩ := bind_eq_ok.mp h
          obtain ⟨items', hitems', h⟩ := bind_eq_ok.mp h
          cases h
          have hmembers := forall₂_of_mapM hspecs
          rw [← o.map_fst_members, List.forall₂_map_left_iff] at hmembers
          refine ⟨name :: declared, ?_, Or.inl ⟨?_, _, items', rfl, .exclusive hgroup hmembers, hitems'⟩⟩
          · intro n
            rw [List.mem_cons, or_comm, Option.some.injEq, eq_comm]
          · intro n hn
            rw [← Option.some.inj hn]
            exact hin

/-- **A declaration is made of each leader**, while `declared` holds the groups of the arguments
before. -/
theorem itemsFrom_declares {before rest : List Arg} {declared : List String}
    (hargs : o.args = before ++ rest)
    (hdeclared : ∀ n, n ∈ declared ↔ ∃ b ∈ before, b.group = some n)
    (h : o.itemsFrom sources declared rest = .ok items) :
    List.Forall₂ (Declares sources o) ((rest.zipIdx before.length).filter o.leads) items := by
  induction rest generalizing before declared items with
  | nil =>
      cases h
      exact .nil
  | cons a rest ih =>
      have hargs' : o.args = (before ++ [a]) ++ rest := by rw [hargs, List.append_cons]
      have hlength : (before ++ [a]).length = before.length + 1 := List.length_append
      -- The argument leads just if its group was not declared before.
      have hleads : o.leads (a, before.length) = true ↔ ∀ n, a.group = some n → n ∉ declared := by
        rw [Outline.leads_iff, hargs, List.take_left]
        cases hgroup : a.group with
        | none => simp
        | some name => simp [hdeclared]
      obtain ⟨declared', hmem, hcases⟩ := itemsFrom_cons before.length h
      have hdeclared' : ∀ n, n ∈ declared' ↔ ∃ b ∈ before ++ [a], b.group = some n := by
        intro n
        rw [hmem, hdeclared]
        simp [or_and_right, exists_or]
      rw [List.zipIdx_cons, ← hlength]
      rcases hcases with ⟨hnew, item, items', rfl, hitem, hrest⟩ | ⟨⟨n, hgroup, hin⟩, hrest⟩
      · rw [List.filter_cons_of_pos (hleads.mpr hnew)]
        exact .cons hitem (ih hargs' hdeclared' hrest)
      · have hnot : ¬o.leads (a, before.length) = true := fun hl => hleads.mp hl n hgroup hin
        rw [List.filter_cons_of_neg hnot]
        exact ih hargs' hdeclared' hrest

/-- No subcommand is among what is declared. -/
theorem subcommand_not_declared (h : List.Forall₂ (Declares sources o) leaders items) :
    ∀ item ∈ items, item.isSubcommand = false := by
  induction h with
  | nil => simp
  | cons hp hrest ih =>
      intro item hitem
      rcases List.mem_cons.mp hitem with rfl | hitem
      · cases hp with
        | arg | exclusive => rfl
      · exact ih item hitem

/-- A group is marked as required if the settings say so. -/
theorem groupMarks_of_declares (h : List.Forall₂ (Declares sources o) leaders items)
    (subs : List (String × Grammar)) :
    (o.toSpec items subs).groupMarks = (groupsOf leaders).map o.isRequired := by
  have hnone : (o.toSpec [] subs).groupMarks = [] := by
    rw [GrammarSpec.groupMarks, List.filterMap_eq_nil_iff]
    intro item hitem
    obtain ⟨sub, -, rfl⟩ := List.mem_map.mp hitem
    rfl
  induction h with
  | nil => exact hnone
  | cons hp hrest ih =>
      cases hp with
      | arg hgroup hspec =>
          rw [groupsOf_cons_of_none hgroup, ← ih]
          rfl
      | exclusive hgroup hspecs =>
          rw [groupsOf_cons_of_some hgroup, List.map_cons, ← ih]
          rfl

/-! ## What stands for what -/

/-- An argument of the grammar stands for a declared one: it is what this one's declaration gives,
in the group whose number is the place of the name among the names of the groups. -/
def Stands (sources : Sources) (o : Outline) (p : Arg × Nat) (d : ArgDef Grammar) : Prop :=
  ∃ spec, p.1.toSpec sources = .ok spec ∧
    d = spec.toDef o.prefixChars.toList (p.1.group.map fun name => o.groupNames.idxOf name)

/-- **Each declaration puts the arguments of its block into the grammar**, while `done` holds the names
of the groups before. -/
theorem defsFrom_stands {spec : GrammarSpec} (hchars : spec.prefixChars = o.prefixChars)
    (h : List.Forall₂ (Declares sources o) leaders items) {done : List String}
    (hnames : o.groupNames = done ++ groupsOf leaders) (more : List SpecItem) :
    ∃ defs, spec.defsFrom done.length false (items ++ more) =
        defs ++ spec.defsFrom o.groupNames.length false more ∧
      List.Forall₂ (Stands sources o) (leaders.flatMap o.block) defs := by
  induction h generalizing done with
  | nil =>
      refine ⟨[], ?_, .nil⟩
      simp [hnames, groupsOf]
  | @cons p item leaders items hp hrest ih =>
      cases hp with
      | @arg argSpec hgroup hspec =>
          rw [groupsOf_cons_of_none hgroup] at hnames
          obtain ⟨defs, hdefs, hstands⟩ := ih hnames
          refine ⟨argSpec.toDef spec.prefixChars.toList none :: defs, ?_, ?_⟩
          · rw [List.cons_append, GrammarSpec.defsFrom, hdefs]
            rfl
          · rw [List.flatMap_cons, Outline.block_of_none hgroup]
            refine .cons ⟨argSpec, hspec, ?_⟩ hstands
            rw [hgroup, hchars]
            rfl
      | @exclusive name specs hgroup hspecs =>
          rw [groupsOf_cons_of_some hgroup] at hnames
          have hnames' : o.groupNames = (done ++ [name]) ++ groupsOf leaders := by
            rw [hnames, List.append_cons]
          have hnumber : o.groupNames.idxOf name = done.length := by
            have hnew : name ∉ done := by
              have hnodup := o.groupNames_nodup
              rw [hnames, List.nodup_append] at hnodup
              intro hin
              exact hnodup.2.2 name hin name List.mem_cons_self rfl
            rw [hnames, List.idxOf_append_of_notMem hnew, List.idxOf_cons_self, Nat.add_zero]
          obtain ⟨defs, hdefs, hstands⟩ := ih hnames'
          refine ⟨specs.map (·.toDef spec.prefixChars.toList (some done.length)) ++ defs, ?_, ?_⟩
          · rw [List.cons_append, GrammarSpec.defsFrom, List.append_assoc, ← hdefs]
            simp
          · rw [List.flatMap_cons, Outline.block_of_some hgroup]
            refine List.rel_append ?_ hstands
            rw [List.forall₂_map_right_iff]
            have hmembers := (List.forall₂_and_left _ _).mpr
              ⟨fun q hq => (Outline.mem_members.mp hq).2, hspecs⟩
            refine hmembers.imp ?_
            intro q argSpec hq
            obtain ⟨hname, hspec⟩ := hq
            refine ⟨argSpec, hspec, ?_⟩
            rw [hname, hchars, Option.map_some, hnumber]

/-! ## The grammar of a command -/

def Outline.helpArgs (o : Outline) : List (ArgDef Grammar) :=
  if o.addHelp then [ArgSpec.helpFlag.toDef o.prefixChars.toList none] else []

def Outline.dispatchArgs (o : Outline) (subs : List (String × Grammar)) : List (ArgDef Grammar) :=
  if subs.isEmpty then [] else [(o.toSpec [] subs).dispatchDef]

theorem toSpec_subcommands (hitems : ∀ item ∈ items, item.isSubcommand = false) :
    (o.toSpec items subs).subcommands = subs := by
  induction items with
  | nil =>
      show (subs.map _).filterMap _ = subs
      rw [List.filterMap_map]
      exact List.filterMap_some
  | cons item items ih =>
      have hitems' : ∀ item ∈ items, item.isSubcommand = false :=
        fun i hi => hitems i (List.mem_cons_of_mem _ hi)
      cases item with
      | arg | exclusive => exact ih hitems'
      | subcommand => exact absurd (hitems _ List.mem_cons_self) (by simp [SpecItem.isSubcommand])

/-- Of the subcommands the first one puts the dispatch argument. -/
theorem defsFrom_subcommands (spec : GrammarSpec) (n : Nat) (put : Bool)
    (subs : List (String × Grammar)) :
    spec.defsFrom n put (subs.map fun p => .subcommand p.1 p.2) =
      if put || subs.isEmpty then [] else [spec.dispatchDef] := by
  induction subs generalizing put with
  | nil => simp [GrammarSpec.defsFrom]
  | cons p subs ih =>
      rw [List.map_cons, GrammarSpec.defsFrom, ih]
      cases put <;> simp

/-- **The arguments of a grammar stand for the declared ones in their arrangement.** -/
theorem toSpec_defs (h : List.Forall₂ (Declares sources o) o.leaders items)
    (subs : List (String × Grammar)) :
    ∃ declared, (o.toSpec items subs).defs = o.helpArgs ++ declared ++ o.dispatchArgs subs ∧
      List.Forall₂ (Stands sources o) o.arrangement declared := by
  have hchars : (o.toSpec items subs).prefixChars = o.prefixChars := rfl
  have hnames : o.groupNames = [] ++ groupsOf o.leaders := rfl
  obtain ⟨declared, hdefs, hstands⟩ :=
    defsFrom_stands hchars h hnames (subs.map fun p => .subcommand p.1 p.2)
  refine ⟨declared, ?_, hstands⟩
  have hdispatch : (o.toSpec items subs).dispatchDef = (o.toSpec [] subs).dispatchDef := by
    rw [GrammarSpec.dispatchDef, GrammarSpec.dispatchDef,
      toSpec_subcommands (subcommand_not_declared h), toSpec_subcommands (by simp)]
    rfl
  rw [defsFrom_subcommands, hdispatch] at hdefs
  rw [GrammarSpec.defs, Outline.helpArgs, List.append_assoc, Outline.dispatchArgs]
  show (if o.addHelp then _ :: (o.toSpec items subs).defsFrom 0 false (items ++ _) else
    (o.toSpec items subs).defsFrom 0 false (items ++ _)) = _
  rw [← Bool.false_or subs.isEmpty, ← hdefs]
  cases o.addHelp <;> rfl

namespace Stands

variable {q : Arg × Nat} {e : ArgDef Grammar} {k : Nat}

theorem group_eq (h : Stands sources o p d) :
    d.group = p.1.group.map fun name => o.groupNames.idxOf name := by
  obtain ⟨spec, -, rfl⟩ := h
  rfl

theorem group_eq_none_iff (h : Stands sources o p d) : d.group = none ↔ p.1.group = none := by
  rw [h.group_eq, Option.map_eq_none_iff]

theorem group_eq_some_iff (h : Stands sources o p d) :
    d.group = some k ↔ ∃ name, p.1.group = some name ∧ o.groupNames.idxOf name = k := by
  rw [h.group_eq, Option.map_eq_some_iff]

/-- Groups have the same number just if they have the same name. -/
theorem sameGroup_iff (hp : Stands sources o p d) (hq : Stands sources o q e)
    (hplace : p ∈ o.places) :
    (∃ k, d.group = some k ∧ e.group = some k) ↔
      ∃ name, p.1.group = some name ∧ q.1.group = some name := by
  simp only [hp.group_eq_some_iff, hq.group_eq_some_iff]
  constructor
  · intro h
    obtain ⟨k, ⟨name, hname, hk⟩, name', hname', hk'⟩ := h
    have hmem : name ∈ o.groupNames := Outline.mem_groupNames.mpr ⟨p, hplace, hname⟩
    have hsame : name = name' := (List.idxOf_inj hmem).mp (hk.trans hk'.symm)
    exact ⟨name, hname, hsame ▸ hname'⟩
  · intro h
    obtain ⟨name, hname, hname'⟩ := h
    exact ⟨_, ⟨name, hname, rfl⟩, name, hname', rfl⟩

end Stands

/-- What loading the schema of a command makes of its arguments. `pairs` are the declared arguments
with those of the grammar that stand for them, in the order of the grammar. -/
structure Lays (sources : Sources) (c : Command) (g : Grammar)
    (pairs : List ((Arg × Nat) × ArgDef Grammar)) : Prop where
  args : g.args = c.helpArgs ++ pairs.map (·.2) ++ c.dispatchArgs g.subcommands
  order : c.Arranges (pairs.map (·.1))
  stands : ∀ p d, (p, d) ∈ pairs → ∃ spec, p.1.toSpec sources = .ok spec ∧
    d = spec.toDef c.prefixChars.toList d.group
  ungrouped : ∀ p d, (p, d) ∈ pairs → (d.group = none ↔ p.1.group = none)
  sameGroup : ∀ p d q e, (p, d) ∈ pairs → (q, e) ∈ pairs →
    ((∃ k, d.group = some k ∧ e.group = some k) ↔
      ∃ name, p.1.group = some name ∧ q.1.group = some name)
  groups : ∀ k < g.groups.length, ∃ p d, (p, d) ∈ pairs ∧ d.group = some k
  required : ∀ p d k name, (p, d) ∈ pairs → d.group = some k → p.1.group = some name →
    (g.groupRequired k = true ↔ c.groups.lookup name = some true)

/-- The group of a name is required just if its settings say so. -/
theorem groupRequired_idxOf (hgroups : g.groups = o.groupNames.map o.isRequired)
    (hname : name ∈ o.groupNames) :
    g.groupRequired (o.groupNames.idxOf name) = true ↔ o.groups.lookup name = some true := by
  have hmark : g.groupRequired (o.groupNames.idxOf name) = o.isRequired name := by
    rw [Grammar.groupRequired, hgroups, List.getD_eq_getElem?_getD, List.getElem?_map,
      List.getElem?_idxOf hname]
    rfl
  rw [hmark, Outline.isRequired]
  cases o.groups.lookup name <;> simp

/-- **Arguments that stand for the declared ones in their arrangement are laid out.** -/
theorem lays_of_stands (commands : List Command) {declared : List (ArgDef Grammar)}
    (hargs : g.args = o.helpArgs ++ declared ++ o.dispatchArgs g.subcommands)
    (hgroups : g.groups = o.groupNames.map o.isRequired)
    (hstands : List.Forall₂ (Stands sources o) o.arrangement declared) :
    Lays sources ⟨o, commands⟩ g (o.arrangement.zip declared) := by
  obtain ⟨hlength, hpairs⟩ := List.forall₂_iff_zip.mp hstands
  have hfst : (o.arrangement.zip declared).map (·.1) = o.arrangement :=
    List.map_fst_zip (Nat.le_of_eq hlength)
  have hsnd : (o.arrangement.zip declared).map (·.2) = declared :=
    List.map_snd_zip (Nat.le_of_eq hlength.symm)
  have hplaces : ∀ p d, (p, d) ∈ o.arrangement.zip declared → p ∈ o.places :=
    fun p d hpd => Outline.mem_arrangement.mp (List.of_mem_zip hpd).1
  refine ⟨?_, ?_, ?_, ?_, ?_, ?_, ?_⟩
  · rw [hargs, hsnd]
  · rw [hfst]
    exact o.arrangement_arranges
  · intro p d hpd
    obtain ⟨spec, hspec, rfl⟩ := hpairs hpd
    exact ⟨spec, hspec, rfl⟩
  · intro p d hpd
    exact (hpairs hpd).group_eq_none_iff
  · intro p d q e hpd hqe
    exact (hpairs hpd).sameGroup_iff (hpairs hqe) (hplaces p d hpd)
  · intro k hk
    rw [hgroups, List.length_map] at hk
    obtain ⟨p, hp, hname⟩ := Outline.mem_groupNames.mp (List.getElem_mem hk)
    rw [← Outline.mem_arrangement, ← hfst] at hp
    obtain ⟨⟨p, d⟩, hpd, rfl⟩ := List.mem_map.mp hp
    refine ⟨p, d, hpd, (hpairs hpd).group_eq_some_iff.mpr ⟨_, hname, ?_⟩⟩
    exact o.groupNames_nodup.idxOf_getElem k hk
  · intro p d k name hpd hk hname
    obtain ⟨name', hname', rfl⟩ := (hpairs hpd).group_eq_some_iff.mp hk
    obtain rfl : name = name' := Option.some.inj (hname.symm.trans hname')
    exact groupRequired_idxOf hgroups (Outline.mem_groupNames.mpr ⟨p, hplaces p d hpd, hname⟩)

/-- Putting the declarations of a command together lays out its arguments. -/
theorem build_lays (commands : List Command) (hitems : o.itemsFrom sources [] o.args = .ok items)
    (hbuild : (o.toSpec items subs).build = .ok g) :
    g.subcommands = subs ∧ ∃ pairs, Lays sources ⟨o, commands⟩ g pairs := by
  have hall : o.args = [] ++ o.args := rfl
  have hleaders : List.Forall₂ (Declares sources o) o.leaders items :=
    itemsFrom_declares hall (by simp) hitems
  obtain ⟨declared, hdefs, hstands⟩ := toSpec_defs hleaders subs
  obtain ⟨hargs, hmarks, -⟩ := Grammar.build_fields hbuild
  have hsubs : g.subcommands = subs := by
    rw [Grammar.build_subcommands hbuild, toSpec_subcommands (subcommand_not_declared hleaders)]
  have hgroups : g.groups = o.groupNames.map o.isRequired := by
    rw [hmarks, groupMarks_of_declares hleaders]
    rfl
  rw [hdefs, ← hsubs] at hargs
  exact ⟨hsubs, _, lays_of_stands commands hargs hgroups hstands⟩

/-! ## Commands at every depth -/

/-- What holds of a command if it holds of its subcommands holds of every command. -/
theorem Command.induct {motive : Command → Prop}
    (step : ∀ o commands, (∀ inner ∈ commands, motive inner) → motive ⟨o, commands⟩) :
    ∀ c, motive c
  | ⟨o, commands⟩ => step o commands fun inner hinner =>
      have hsmaller : sizeOf inner < sizeOf (Command.mk o commands) := by
        have hlist := List.sizeOf_lt_of_mem hinner
        simp only [Command.mk.sizeOf_spec]
        omega
      induct step inner
  termination_by c => sizeOf c
  decreasing_by exact hsmaller

/-- The subcommands are built one after the other, under their names. -/
theorem buildSubcommands_eq_ok {commands : List Command}
    (h : Command.buildSubcommands sources commands = .ok subs) :
    subs.map (·.1) = commands.map (·.name) ∧
      List.Forall₂ (fun c p => Command.build sources c = .ok p.2) commands subs := by
  induction commands generalizing subs with
  | nil =>
      cases h
      exact ⟨rfl, .nil⟩
  | cons c commands ih =>
      rw [Command.buildSubcommands] at h
      obtain ⟨g, hg, h⟩ := bind_eq_ok.mp h
      obtain ⟨rest, hrest, h⟩ := bind_eq_ok.mp h
      cases h
      obtain ⟨hnames, hbuilt⟩ := ih hrest
      exact ⟨congrArg (c.name :: ·) hnames, .cons hg hbuilt⟩

/-- Loading the schema of a command lays out its arguments, and so for the subcommands at every
depth, which keep their names and their order. -/
inductive Loads (sources : Sources) : Command → Grammar → Prop where
  | intro {c : Command} {g : Grammar} {pairs : List ((Arg × Nat) × ArgDef Grammar)}
      (here : Lays sources c g pairs)
      (names : g.subcommandNames = c.subcommands.map (·.name))
      (below : ∀ (i : Nat) (inner : Command) (p : String × Grammar),
        c.subcommands[i]? = some inner → g.subcommands[i]? = some p → Loads sources inner p.2) :
      Loads sources c g

/-- **Loading a schema keeps every argument exactly once.** The arguments of the grammar are the help
flag, if the command has one, then an argument for each declared one, then the dispatch argument, if
there are subcommands. Each declared argument stands there once; those in no group and the first
member of each group stand in their order, and the other members of a group stand behind its first one
in theirs. Arguments are in the same group of the grammar just if their schemas name the same group,
and a group is required just if its settings say so. The same holds for the subcommands, which have
their names and their order, and for theirs. -/
theorem build_loads (h : c.build sources = .ok g) : Loads sources c g := by
  induction c using Command.induct generalizing g with
  | step o commands ih =>
      rw [Command.build] at h
      obtain ⟨items, hitems, h⟩ := bind_eq_ok.mp h
      obtain ⟨subs, hsubs, hbuild⟩ := bind_eq_ok.mp h
      obtain ⟨rfl, pairs, hlays⟩ := build_lays commands hitems hbuild
      obtain ⟨hnames, hbuilt⟩ := buildSubcommands_eq_ok hsubs
      refine .intro hlays hnames ?_
      intro i inner p hinner hp
      have hpair : (inner, p) ∈ commands.zip g.subcommands :=
        List.mem_of_getElem? (List.getElem?_zip_eq_some.mpr ⟨hinner, hp⟩)
      exact ih inner (List.mem_of_getElem? hinner) (List.forall₂_zip hbuilt hpair)

/-- A command whose two groups are interleaved, one of which is required, with a subcommand. -/
def exporting : Command :=
  { name := "export"
    addHelp := true
    args :=
      [{ flags := some ["--json"], group := some "format" }, { name := some "file" },
        { flags := some ["--all"], group := some "which" },
        { flags := some ["--table"], group := some "format" },
        { flags := some ["--first"], group := some "which" }]
    groups := [("which", true)]
    subcommands := [{ name := "later", args := [{ name := some "time" }] }] }

theorem exporting_loads :
    ∃ g, exporting.build [] = .ok g ∧ Loads [] exporting g ∧
      g.args.map (·.dest) = ["help", "json", "table", "file", "all", "first", ""] ∧
      g.args.map (·.group) = [none, some 0, some 0, none, some 1, some 1, none] ∧
      g.groups = [false, true] ∧ g.subcommandNames = ["later"] := by
  obtain ⟨g, hbuild, hdests, hmembers, hgroups⟩ :
      ∃ g, exporting.build [] = .ok g ∧
        g.args.map (·.dest) = ["help", "json", "table", "file", "all", "first", ""] ∧
        g.args.map (·.group) = [none, some 0, some 0, none, some 1, some 1, none] ∧
        g.groups = [false, true] :=
    ⟨_, rfl, rfl, rfl, rfl⟩
  have hloads := build_loads hbuild
  refine ⟨g, hbuild, hloads, hdests, hmembers, hgroups, ?_⟩
  obtain ⟨-, hnames, -⟩ := hloads
  exact hnames

end TabCompletion.Schema
