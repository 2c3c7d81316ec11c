import Mathlib.Data.List.Induction
import Mathlib.Data.List.Nodup
import TabCompletion.Grammar.Basic

/-!
# The places of a grammar's arguments

An argument is known by its place. What the table of spellings, the positionals and the exclusive
groups list are arguments in their places, each at most once.
-/

namespace TabCompletion

/-- Of a word that stands in a list already no second one is kept. -/
theorem eraseDups_concat (words : List String) (a : String) :
    (words ++ [a]).eraseDups = if a ∈ words then words.eraseDups else words.eraseDups ++ [a] := by
  rw [List.eraseDups_append]
  by_cases ha : a ∈ words <;> simp [List.removeAll, List.eraseDups_cons, ha]

theorem nodup_eraseDups (words : List String) : words.eraseDups.Nodup := by
  induction words using List.reverseRecOn with
  | nil => simp
  | append_singleton words a ih =>
      rw [eraseDups_concat]
      split
      · exact ih
      · next ha =>
          rw [← List.concat_eq_append]
          exact ih.concat (by simpa using ha)

namespace ArgDef

variable {G : Type} {d : ArgDef G}

/-- A flag has spellings, and nothing else has. -/
theorem isFlag_of_mem_aliases {a : String} (h : a ∈ d.aliases) : d.isFlag = true := by
  unfold aliases at h
  unfold isFlag
  split at h <;> simp_all

theorem isDispatch_eq_false : d.isDispatch = false ↔ d.subcommands? = none := by
  unfold isDispatch subcommands?
  split <;> simp

/-- Flags select no subcommand. -/
theorem subcommands?_of_isFlag (h : d.isFlag = true) : d.subcommands? = none := by
  unfold isFlag at h
  unfold subcommands?
  split at h <;> simp_all

/-- What takes everything that follows has no greatest number of values. -/
theorem max_of_isRemainder (h : d.isRemainder = true) : d.arity.max = none := by
  unfold isRemainder Nargs.isRemainder at h
  unfold arity
  split at h
  · next hn => rw [hn]; rfl
  · exact absurd h (by decide)

end ArgDef

namespace Grammar

variable {g : Grammar} {s t : Slot} {word : String} {group : Nat}

/-- The slot of an argument holds its place. -/
theorem mem_slots : s ∈ g.slots ↔ g.args[s.index]? = some s.arg := by
  unfold slots
  constructor
  · intro h
    obtain ⟨p, hp, rfl⟩ := List.mem_map.mp h
    exact List.mem_zipIdx_iff_getElem?.mp hp
  · intro h
    exact List.mem_map.mpr ⟨(s.arg, s.index), List.mk_mem_zipIdx_iff_getElem?.mpr h, rfl⟩

theorem arg_mem_args (hs : s ∈ g.slots) : s.arg ∈ g.args := List.mem_of_getElem? (mem_slots.mp hs)

theorem exists_slot {d : ArgDef Grammar} (hd : d ∈ g.args) : ∃ s ∈ g.slots, s.arg = d := by
  obtain ⟨i, hi⟩ := List.mem_iff_getElem?.mp hd
  exact ⟨⟨i, d⟩, mem_slots.mpr hi, rfl⟩

/-- **A place holds one argument.** -/
theorem slot_eq_of_index_eq (hs : s ∈ g.slots) (ht : t ∈ g.slots) (h : s.index = t.index) :
    s = t := by
  rw [mem_slots, h, mem_slots.mp ht, Option.some.injEq] at hs
  cases s
  cases t
  simp_all

theorem slots_nodup (g : Grammar) : g.slots.Nodup := by
  have hplaces : g.slots.map (·.index) = g.args.zipIdx.map Prod.snd := by
    rw [slots, List.map_map]
    rfl
  refine List.Nodup.of_map (·.index) ?_
  rw [hplaces, List.zipIdx_map_snd]
  exact List.nodup_range'

/-! ## Positionals -/

theorem mem_positionals : s ∈ g.positionals ↔ s ∈ g.slots ∧ s.arg.isFlag = false := by
  simp [positionals]

theorem positionals_nodup (g : Grammar) : g.positionals.Nodup :=
  g.slots_nodup.filter _

/-! ## Exclusive groups -/

theorem mem_groupMembers : s ∈ g.groupMembers group ↔ s ∈ g.slots ∧ s.arg.group = some group := by
  simp [groupMembers]

/-! ## Flags -/

theorem mem_flagTable : (word, s) ∈ g.flagTable ↔ s ∈ g.slots ∧ word ∈ s.arg.aliases := by
  simp only [flagTable, flagEntries, List.mem_flatMap, List.mem_map, List.mem_eraseDups,
    Prod.mk.injEq]
  constructor
  · rintro ⟨t, ht, a, ha, rfl, rfl⟩
    exact ⟨ht, ha⟩
  · rintro ⟨hs, hw⟩
    exact ⟨s, hs, word, hw, rfl, rfl⟩

/-- **A spelling of a flag stands in the table once.** -/
theorem flagTable_nodup (g : Grammar) : g.flagTable.Nodup := by
  rw [flagTable, List.nodup_flatMap]
  constructor
  · intro s hs
    exact (nodup_eraseDups _).map fun a b hab => (Prod.mk.inj hab).1
  · refine g.slots_nodup.pairwise_of_forall_ne ?_
    intro s hs t ht hne e hes het
    obtain ⟨a, -, rfl⟩ := List.mem_map.mp hes
    obtain ⟨b, -, hb⟩ := List.mem_map.mp het
    exact hne (Prod.mk.inj hb).2.symm

theorem mem_flagTable_of_flag? (h : g.flag? word = some s) : (word, s) ∈ g.flagTable := by
  obtain ⟨l₁, l₂, htable, -⟩ := List.lookup_eq_some_iff.mp h
  rw [htable]
  simp

/-- A word that stands for a flag is a spelling of it or begins one. -/
theorem mem_flagTable_of_matchFlag? (h : g.matchFlag? word = some s) :
    ∃ a, (a, s) ∈ g.flagTable ∧ (a = word ∨ Text.beginsWith a word = true) := by
  unfold matchFlag? at h
  split at h
  · next t ht =>
      cases h
      exact ⟨word, mem_flagTable_of_flag? ht, Or.inl rfl⟩
  · split at h
    · split at h
      · next e he =>
          cases h
          have hmem : e ∈ g.flagTable.filter fun e => Text.beginsWith e.1 word := by simp [he]
          obtain ⟨hin, hbegins⟩ := List.mem_filter.mp hmem
          exact ⟨e.1, hin, Or.inr hbegins⟩
      · contradiction
    · contradiction

/-- **What a word stands for as a flag is a flag of the grammar.** -/
theorem matchFlag?_mem (h : g.matchFlag? word = some s) : s ∈ g.slots ∧ s.arg.isFlag = true := by
  obtain ⟨a, ha, -⟩ := mem_flagTable_of_matchFlag? h
  obtain ⟨hs, hword⟩ := mem_flagTable.mp ha
  exact ⟨hs, ArgDef.isFlag_of_mem_aliases hword⟩

end Grammar

end TabCompletion
