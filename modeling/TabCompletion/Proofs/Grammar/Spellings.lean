import Mathlib.Tactic.MkIffOfInductiveProp
import TabCompletion.Grammar.Builder
import TabCompletion.Proofs.Grammar.Declared
import TabCompletion.Proofs.Grammar.Slots

/-!
# What building a grammar checks

Building checks each argument against those before it. The checks come down to what is asked of every
argument for itself (`ArgDef.Sound`) and of every two (`ArgDef.MayFollow`), and all arguments pass just if
these hold (`checkArgs_eq_ok`). So in a built grammar no spelling belongs to two flags
(`build_spellingsDistinct`), a spelling stands for its owner (`SpellingsDistinct.flag?_eq_some_iff`), and no
argument needs more values than it may take (`build_min_le_max`).
-/

namespace TabCompletion

variable {g : Grammar} {spec : GrammarSpec} {d : ArgDef Grammar} {s t : Slot} {a : String}
  {prefixChars : List Char} {earlier defs : List (ArgDef Grammar)}

/-! ## What is checked -/

namespace ArgDef

/-- What is asked of an argument for itself: its bounds are in order, its spellings begin with prefix
characters, and a positional neither looks like a flag nor acts like one. -/
@[mk_iff]
structure Sound (prefixChars : List Char) (d : ArgDef Grammar) : Prop where
  nargs : d.nargs.isValid = true
  spelling : ∀ a ∈ d.aliases, a.toList.head?.any prefixChars.contains = true
  positional : d.isFlag = false → d.isDispatch = false →
    d.dest.toList.head?.any prefixChars.contains = false ∧ d.action.suitsPositional = true

/-- What is asked of an argument and one before it: they share no spelling, and two flags of one
destination keep each other's values. -/
structure MayFollow (d earlier : ArgDef Grammar) : Prop where
  spelling : ∀ a ∈ d.aliases, a ∉ earlier.aliases
  dest : d.isFlag = true → clashesWith d earlier = false

theorem forall_mayFollow :
    (∀ other ∈ earlier, d.MayFollow other) ↔
      (∀ a ∈ d.aliases, a ∉ earlier.flatMap (·.aliases)) ∧
        (d.isFlag = true → earlier.any (clashesWith d) = false) := by
  simp only [List.mem_flatMap, not_exists, not_and, List.any_eq_false, Bool.not_eq_true]
  constructor
  · intro h
    exact ⟨fun a ha other hother => (h other hother).spelling a ha,
      fun hflag other hother => (h other hother).dest hflag⟩
  · rintro ⟨hspelling, hdest⟩ other hother
    exact ⟨fun a ha => hspelling a ha other hother, fun hflag => hdest hflag other hother⟩

/-- A flag that may follow another one with its destination keeps the values, as the other one does. -/
theorem MayFollow.isReusable {other : ArgDef Grammar} (h : d.MayFollow other) (hd : d.isFlag = true)
    (hother : other.isFlag = true) (hdest : other.dest = d.dest) :
    other.isReusable = true ∧ d.isReusable = true := by
  simpa [clashesWith, hother, hdest] using h.dest hd

end ArgDef

theorem checkSpellings_eq_ok {taken aliases : List String} :
    checkSpellings prefixChars taken aliases = .ok () ↔
      (∀ a ∈ aliases, a.toList.head?.any prefixChars.contains = true) ∧ ∀ a ∈ aliases, a ∉ taken := by
  induction aliases with
  | nil => simp [checkSpellings]
  | cons a rest ih =>
      rw [checkSpellings]
      split
      · next hchar => simp_all
      · split
        · next hchar htaken => simp_all
        · next hchar htaken => simp_all

/-- **An argument passes its check just if it is in order and may follow all arguments before it.** -/
theorem checkArg_eq_ok :
    checkArg prefixChars earlier d = .ok () ↔
      d.Sound prefixChars ∧ ∀ other ∈ earlier, d.MayFollow other := by
  rw [ArgDef.sound_iff, ArgDef.forall_mayFollow, checkArg]
  cases d.nargs.isValid with
  | false => simp
  | true =>
      cases hkind : d.kind with
      | flag aliases =>
          have haliases : d.aliases = aliases := by simp [ArgDef.aliases, hkind]
          have hflag : d.isFlag = true := by simp [ArgDef.isFlag, hkind]
          rw [haliases]
          cases hchecked : checkSpellings prefixChars (earlier.flatMap (·.aliases)) aliases with
          | error e =>
              have hfault := mt checkSpellings_eq_ok.mpr (by rw [hchecked]; simp)
              constructor
              · intro h
                simp [hchecked] at h
              · rintro ⟨⟨-, hchars, -⟩, hfresh, -⟩
                exact absurd ⟨hchars, hfresh⟩ hfault
          | ok u =>
              obtain ⟨hchars, hfresh⟩ := checkSpellings_eq_ok.mp hchecked
              cases earlier.any (clashesWith d) <;> simp_all
      | positional =>
          have haliases : d.aliases = [] := by simp [ArgDef.aliases, hkind]
          have hflag : d.isFlag = false := by simp [ArgDef.isFlag, hkind]
          have hdispatch : d.isDispatch = false := by simp [ArgDef.isDispatch, hkind]
          cases d.dest.toList.head?.any prefixChars.contains <;>
            cases d.action.suitsPositional <;> simp [haliases, hflag, hdispatch]
      | dispatch subcommands recorded =>
          have haliases : d.aliases = [] := by simp [ArgDef.aliases, hkind]
          have hflag : d.isFlag = false := by simp [ArgDef.isFlag, hkind]
          have hdispatch : d.isDispatch = true := by simp [ArgDef.isDispatch, hkind]
          simp [haliases, hflag, hdispatch]

/-- Arguments that are all in order, and of which each may follow all before it. -/
structure Consistent (prefixChars : List Char) (defs : List (ArgDef Grammar)) : Prop where
  sound : ∀ d ∈ defs, d.Sound prefixChars
  pairwise : defs.Pairwise fun other d => d.MayFollow other

theorem consistent_cons :
    Consistent prefixChars (d :: defs) ↔
      d.Sound prefixChars ∧ (∀ e ∈ defs, e.MayFollow d) ∧ Consistent prefixChars defs := by
  constructor
  · rintro ⟨hsound, hpairwise⟩
    obtain ⟨hd, hdefs⟩ := List.forall_mem_cons.mp hsound
    obtain ⟨hfollow, hrest⟩ := List.pairwise_cons.mp hpairwise
    exact ⟨hd, hfollow, hdefs, hrest⟩
  · rintro ⟨hd, hfollow, hdefs, hrest⟩
    exact ⟨List.forall_mem_cons.mpr ⟨hd, hdefs⟩, List.pairwise_cons.mpr ⟨hfollow, hrest⟩⟩

theorem checkArgs_eq_ok_iff :
    checkArgs prefixChars earlier defs = .ok () ↔
      Consistent prefixChars defs ∧ ∀ other ∈ earlier, ∀ d ∈ defs, d.MayFollow other := by
  induction defs generalizing earlier with
  | nil => simp [checkArgs, Consistent.mk]
  | cons d rest ih =>
      rw [checkArgs, consistent_cons]
      cases hchecked : checkArg prefixChars earlier d with
      | error e =>
          constructor
          · intro h
            contradiction
          · rintro ⟨⟨hsound, -⟩, hearlier⟩
            have hpasses := checkArg_eq_ok.mpr
              ⟨hsound, fun other hother => hearlier other hother d List.mem_cons_self⟩
            rw [hchecked] at hpasses
            contradiction
      | ok u =>
          obtain ⟨hsound, hfollow⟩ := checkArg_eq_ok.mp hchecked
          simp only [ih, List.forall_mem_append, List.forall_mem_singleton, List.forall_mem_cons]
          constructor
          · rintro ⟨hrest, hearlier, hd⟩
            exact ⟨⟨hsound, hd, hrest⟩,
              fun other hother => ⟨hfollow other hother, hearlier other hother⟩⟩
          · rintro ⟨⟨-, hd, hrest⟩, hearlier⟩
            exact ⟨hrest, fun other hother => (hearlier other hother).2, hd⟩

/-- **All arguments pass their checks just if they are consistent.** -/
theorem checkArgs_eq_ok : checkArgs prefixChars [] defs = .ok () ↔ Consistent prefixChars defs := by
  simp [checkArgs_eq_ok_iff]

/-! ## What passed -/

theorem Action.suitsPositional_iff (a : Action) :
    a.suitsPositional = true ↔ a = .store ∨ a = .append := by
  cases a <;> simp [suitsPositional]

/-- A valid declaration needs no more values than it allows. -/
theorem Nargs.min_le_max {n : Nargs} {most : Nat} (h : n.isValid = true)
    (hmax : n.arity.max = some most) : n.arity.min ≤ most := by
  cases n with
  | single | exactly =>
      cases hmax
      exact Nat.le_refl _
  | optional =>
      cases hmax
      exact Nat.zero_le _
  | zeroOrMore | oneOrMore | remainder => contradiction
  | range min max =>
      have hmax : max = some most := hmax
      subst hmax
      exact of_decide_eq_true h

namespace Grammar

/-- **The arguments of a built grammar are consistent.** -/
theorem build_consistent (h : spec.build = .ok g) : Consistent g.prefixChars.toList g.args := by
  obtain ⟨-, hchecked, rfl⟩ := build_eq_ok.mp h
  exact checkArgs_eq_ok.mp hchecked

/-- Every argument of a built grammar is in order. -/
theorem build_sound (h : spec.build = .ok g) (hs : s ∈ g.slots) : s.arg.Sound g.prefixChars.toList :=
  (build_consistent h).sound s.arg (arg_mem_args hs)

/-- Every argument of a built grammar may follow those before it. -/
theorem build_mayFollow (h : spec.build = .ok g) (hs : s ∈ g.slots) (ht : t ∈ g.slots)
    (hlt : s.index < t.index) : t.arg.MayFollow s.arg := by
  obtain ⟨hsi, hs⟩ := List.getElem?_eq_some_iff.mp (mem_slots.mp hs)
  obtain ⟨hti, ht⟩ := List.getElem?_eq_some_iff.mp (mem_slots.mp ht)
  rw [← hs, ← ht]
  exact List.pairwise_iff_getElem.mp (build_consistent h).pairwise _ _ hsi hti hlt

/-- **No argument of a built grammar needs more values than it may take.** -/
theorem build_min_le_max (h : spec.build = .ok g) (hs : s ∈ g.slots) {most : Nat}
    (hmax : s.arg.arity.max = some most) : s.arg.arity.min ≤ most :=
  Nargs.min_le_max (build_sound h hs).nargs hmax

/-! ## Owners -/

def spellings (g : Grammar) : List String := g.args.flatMap (·.aliases)

theorem mem_spellings : a ∈ g.spellings ↔ ∃ f, (a, f) ∈ g.flagTable := by
  simp only [spellings, List.mem_flatMap, mem_flagTable]
  constructor
  · rintro ⟨d, hd, ha⟩
    obtain ⟨f, hf, rfl⟩ := exists_slot hd
    exact ⟨f, hf, ha⟩
  · rintro ⟨f, hf, ha⟩
    exact ⟨f.arg, arg_mem_args hf, ha⟩

/-- No spelling belongs to two flags. -/
def SpellingsDistinct (g : Grammar) : Prop :=
  ∀ ⦃s t a⦄, s ∈ g.slots → t ∈ g.slots → a ∈ s.arg.aliases → a ∈ t.arg.aliases → s = t

/-- **In a built grammar no spelling belongs to two flags.** -/
theorem build_spellingsDistinct (h : spec.build = .ok g) : g.SpellingsDistinct := by
  -- Of two owners the later one was checked against the earlier one.
  have hlater : ∀ ⦃s t a⦄, s ∈ g.slots → t ∈ g.slots → a ∈ s.arg.aliases → a ∈ t.arg.aliases →
      ¬ s.index < t.index := by
    intro s t a hs ht has hat hlt
    exact (build_mayFollow h hs ht hlt).spelling a hat has
  intro s t a hs ht has hat
  have hst := hlater hs ht has hat
  have hts := hlater ht hs hat has
  exact slot_eq_of_index_eq hs ht (by omega)

/-- **A spelling stands for its owner.** -/
theorem SpellingsDistinct.flag?_eq_some_iff (h : g.SpellingsDistinct) :
    g.flag? a = some s ↔ s ∈ g.slots ∧ a ∈ s.arg.aliases := by
  constructor
  · intro hs
    exact mem_flagTable.mp (mem_flagTable_of_flag? hs)
  · rintro ⟨hs, ha⟩
    cases hlookup : g.flag? a with
    | none =>
        have habsent := List.lookup_eq_none_iff.mp hlookup
        have hne := habsent (a, s) (mem_flagTable.mpr ⟨hs, ha⟩)
        simp at hne
    | some t =>
        obtain ⟨ht, hat⟩ := mem_flagTable.mp (mem_flagTable_of_flag? hlookup)
        rw [h hs ht ha hat]

end Grammar

end TabCompletion
