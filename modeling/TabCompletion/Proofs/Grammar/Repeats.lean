import TabCompletion.Proofs.Grammar.Spellings

/-!
# Spellings that are declared twice

The spellings of a flag are compared with those of the flags before it and not with each other. So one
that an earlier flag has is refused, and nothing else is refused for being declared twice
(`build_eq_duplicateFlag`); but among all spellings of a built grammar one stands as often as in the flag
that has it (`build_count_spellings`).
-/

namespace TabCompletion

variable {g : Grammar} {spec : GrammarSpec} {d : ArgDef Grammar} {a : String}
  {prefixChars : List Char} {earlier defs : List (ArgDef Grammar)} {e : GrammarError}

/-! ## Why a spelling is refused -/

/-- Whether a spelling of a flag is refused, where the spellings `taken` belong to flags before it. -/
def isRefused (prefixChars : List Char) (taken : List String) (a : String) : Bool :=
  !(a.toList.head?.any prefixChars.contains) || taken.contains a

theorem checkSpellings_eq_duplicateFlag {taken aliases : List String} :
    checkSpellings prefixChars taken aliases = .error (.duplicateFlag a) ↔
      aliases.find? (isRefused prefixChars taken) = some a ∧
        a.toList.head?.any prefixChars.contains = true := by
  induction aliases with
  | nil => simp [checkSpellings]
  | cons b rest ih =>
      rw [checkSpellings, List.find?_cons, isRefused]
      cases hchar : b.toList.head?.any prefixChars.contains with
      | false =>
          have hother : b = a → a.toList.head?.any prefixChars.contains = false := fun h => h ▸ hchar
          simpa using hother
      | true =>
          cases taken.contains b with
          | false => simpa using ih
          | true =>
              have hsame : b = a → a.toList.head?.any prefixChars.contains = true := fun h => h ▸ hchar
              simpa using hsame

theorem checkArg_eq_duplicateFlag :
    checkArg prefixChars earlier d = .error (.duplicateFlag a) ↔
      d.nargs.isValid = true ∧
        checkSpellings prefixChars (earlier.flatMap (·.aliases)) d.aliases = .error (.duplicateFlag a) := by
  rw [checkArg]
  cases d.nargs.isValid with
  | false => simp
  | true =>
      cases hkind : d.kind with
      | flag aliases =>
          have haliases : d.aliases = aliases := by simp [ArgDef.aliases, hkind]
          rw [haliases]
          cases hchecked : checkSpellings prefixChars (earlier.flatMap (·.aliases)) aliases with
          | error e => simp [hchecked]
          | ok u => cases earlier.any (clashesWith d) <;> simp [hchecked]
      | positional =>
          have haliases : d.aliases = [] := by simp [ArgDef.aliases, hkind]
          rw [haliases]
          cases d.dest.toList.head?.any prefixChars.contains <;>
            cases d.action.suitsPositional <;> simp [checkSpellings]
      | dispatch subcommands recorded =>
          have haliases : d.aliases = [] := by simp [ArgDef.aliases, hkind]
          simp [haliases, checkSpellings]

/-- The checks fail at the first argument that does not pass, whatever follows it. -/
theorem checkArgs_eq_error :
    checkArgs prefixChars earlier defs = .error e ↔
      ∃ before d after, defs = before ++ d :: after ∧
        checkArgs prefixChars earlier before = .ok () ∧
        checkArg prefixChars (earlier ++ before) d = .error e := by
  induction defs generalizing earlier with
  | nil => simp [checkArgs]
  | cons d rest ih =>
      rw [checkArgs]
      constructor
      · intro h
        cases hchecked : checkArg prefixChars earlier d with
        | error e' =>
            simp only [hchecked, Except.error.injEq] at h
            exact ⟨[], d, rest, rfl, rfl, by rw [List.append_nil, hchecked, h]⟩
        | ok u =>
            simp only [hchecked] at h
            obtain ⟨before, f, after, rfl, hbefore, hf⟩ := ih.mp h
            refine ⟨d :: before, f, after, rfl, ?_, ?_⟩
            · simp only [checkArgs, hchecked, hbefore]
            · rwa [List.append_assoc, List.singleton_append] at hf
      · rintro ⟨before, f, after, hdefs, hbefore, hf⟩
        cases before with
        | nil =>
            cases hdefs
            rw [List.append_nil] at hf
            simp only [hf]
        | cons b before =>
            cases hdefs
            rw [checkArgs] at hbefore
            cases hchecked : checkArg prefixChars earlier d with
            | error e' => simp [hchecked] at hbefore
            | ok u =>
                simp only [hchecked] at hbefore ⊢
                refine ih.mpr ⟨before, f, after, rfl, hbefore, ?_⟩
                rwa [List.append_assoc, List.singleton_append]

/-! ## Built grammars -/

namespace Grammar

/-- **A spelling stands among those of a built grammar as often as in the flag that has it.** -/
theorem build_count_spellings (h : spec.build = .ok g) (hd : d ∈ g.args) (ha : a ∈ d.aliases) :
    g.spellings.count a = d.aliases.count a := by
  obtain ⟨earlier, later, hargs⟩ := List.append_of_mem hd
  have hpairwise := (build_consistent h).pairwise
  rw [hargs] at hpairwise
  obtain ⟨-, htail, hcross⟩ := List.pairwise_append.mp hpairwise
  -- Neither a flag before this one nor one after it may have the spelling.
  have hbefore : a ∉ earlier.flatMap (·.aliases) := by
    rw [List.mem_flatMap]
    rintro ⟨e, he, hae⟩
    exact (hcross e he d List.mem_cons_self).spelling a ha hae
  have hafter : a ∉ later.flatMap (·.aliases) := by
    rw [List.mem_flatMap]
    rintro ⟨e, he, hae⟩
    exact ((List.pairwise_cons.mp htail).1 e he).spelling a hae ha
  rw [spellings, hargs, List.flatMap_append, List.flatMap_cons, List.count_append, List.count_append,
    List.count_eq_zero.mpr hbefore, List.count_eq_zero.mpr hafter, Nat.zero_add, Nat.add_zero]

theorem build_spellings_nodup_iff (h : spec.build = .ok g) :
    g.spellings.Nodup ↔ ∀ d ∈ g.args, d.aliases.Nodup := by
  simp only [List.nodup_iff_count_le_one]
  constructor
  · intro hall d hd a
    by_cases ha : a ∈ d.aliases
    · rw [← build_count_spellings h hd ha]
      exact hall a
    · rw [List.count_eq_zero.mpr ha]
      exact Nat.zero_le 1
  · intro hall a
    by_cases ha : a ∈ g.spellings
    · obtain ⟨d, hd, ha⟩ := List.mem_flatMap.mp ha
      rw [build_count_spellings h hd ha]
      exact hall d hd a
    · rw [List.count_eq_zero.mpr ha]
      exact Nat.zero_le 1

/-- The first fault in the declarations is a flag with the spelling `a` of a flag before it. -/
def RepeatsFlag (spec : GrammarSpec) (a : String) : Prop :=
  GrammarSpec.firstRepeated [] (spec.subcommands.map (·.1)) = none ∧
    ∃ earlier d later, spec.defs = earlier ++ d :: later ∧
      Consistent spec.prefixChars.toList earlier ∧ d.nargs.isValid = true ∧
      d.aliases.find? (isRefused spec.prefixChars.toList (earlier.flatMap (·.aliases))) = some a ∧
      a.toList.head?.any spec.prefixChars.toList.contains = true

theorem build_eq_duplicateFlag : spec.build = .error (.duplicateFlag a) ↔ RepeatsFlag spec a := by
  unfold RepeatsFlag
  simp only [← checkSpellings_eq_duplicateFlag, ← checkArg_eq_duplicateFlag, ← checkArgs_eq_ok]
  unfold GrammarSpec.build
  cases GrammarSpec.firstRepeated [] (spec.subcommands.map (·.1)) with
  | some name => simp
  | none =>
      have herror := @checkArgs_eq_error spec.prefixChars.toList [] spec.defs (.duplicateFlag a)
      simp only [List.nil_append] at herror
      rw [← herror]
      cases checkArgs spec.prefixChars.toList [] spec.defs <;> simp

/-- **A spelling that is repeated is repeated within one flag, or refused.** Among the spellings of a
built grammar one stands as often as in the flag that has it, so that none stands twice just if no flag
repeats its own. Building fails for a spelling declared twice just if a flag has one of a flag before it
and nothing before that is at fault. -/
theorem repeated_spelling_is_own_or_refused (spec : GrammarSpec) :
    (∀ g, spec.build = .ok g →
      (∀ d ∈ g.args, ∀ a ∈ d.aliases, g.spellings.count a = d.aliases.count a) ∧
        (g.spellings.Nodup ↔ ∀ d ∈ g.args, d.aliases.Nodup)) ∧
    ∀ a, spec.build = .error (.duplicateFlag a) ↔ RepeatsFlag spec a := by
  constructor
  · intro g h
    exact ⟨fun d hd a ha => build_count_spellings h hd ha, build_spellings_nodup_iff h⟩
  · intro a
    exact build_eq_duplicateFlag

/-- A command with a flag that is declared with one spelling twice. -/
def doubling : GrammarSpec :=
  { prog := "cmd"
    items := [.arg { aliases := ["-v", "-v"], action := .storeTrue }] }

/-- A command with two flags of one spelling. -/
def versioning : GrammarSpec :=
  { prog := "cmd"
    items :=
      [.arg { aliases := ["--verbose", "-v"], action := .storeTrue },
        .arg { aliases := ["--version", "-v"], action := .storeTrue }] }

theorem second_flag_is_refused :
    (∃ g, doubling.build = .ok g ∧ g.spellings.count "-v" = 2 ∧ ¬ g.spellings.Nodup) ∧
      versioning.build = .error (.duplicateFlag "-v") := by
  constructor
  · obtain ⟨g, d, hbuild, hargs, haliases⟩ :
        ∃ g d, doubling.build = .ok g ∧ g.args = [d] ∧ d.aliases = ["-v", "-v"] :=
      ⟨_, _, rfl, rfl, rfl⟩
    have hd : d ∈ g.args := hargs ▸ List.mem_singleton_self d
    obtain ⟨hcount, hnodup⟩ := (repeated_spelling_is_own_or_refused doubling).1 g hbuild
    have htwice := hcount d hd "-v" (by simp [haliases])
    rw [haliases] at htwice
    refine ⟨g, hbuild, htwice, ?_⟩
    intro hall
    have hown := hnodup.mp hall d hd
    rw [haliases] at hown
    exact absurd hown (by decide)
  · refine ((repeated_spelling_is_own_or_refused versioning).2 "-v").mpr ?_
    exact ⟨rfl, [_], _, [], rfl, checkArgs_eq_ok.mp rfl, rfl, rfl, rfl⟩

/-- **A flag may have one spelling twice.** -/
theorem flag_has_spelling_twice :
    ∃ g, doubling.build = .ok g ∧ g.spellings = ["-v", "-v"] ∧ ¬ g.spellings.Nodup :=
  ⟨_, rfl, rfl, by decide⟩

end Grammar

end TabCompletion
