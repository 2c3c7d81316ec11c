import TabCompletion.Completion.Replay
import TabCompletion.Proofs.Grammar.Slots

/-!
# What the parts of a step change

A step may take an exclusive group, begin a flag, or give a word to a positional. Each of these
changes some fields of the state and leaves the others as they are.
-/

namespace TabCompletion

namespace Progress

variable {p : Progress}

@[simp] theorem advance_slot : p.advance.slot = p.slot := rfl

@[simp] theorem advance_arg : p.advance.arg = p.arg := rfl

@[simp] theorem advance_count : p.advance.count = p.count + 1 := rfl

@[simp] theorem advance_isRemainder : p.advance.isRemainder = p.isRemainder := rfl

/-- What takes everything that follows is never full. -/
theorem isFull_of_isRemainder (h : p.isRemainder = true) : p.isFull = false := by
  unfold isFull Arity.isFull
  rw [ArgDef.max_of_isRemainder h]

/-- An argument that is not full has fewer values than its greatest number. -/
theorem isFull_eq_false :
    p.isFull = false ↔ ∀ max, p.arg.arity.max = some max → p.count < max := by
  unfold isFull Arity.isFull
  split
  · next max hmax => simp [hmax]
  · next hmax => simp [hmax]

/-- An argument that is full has its greatest number of values, or more. -/
theorem isFull_eq_true :
    p.isFull = true ↔ ∃ max, p.arg.arity.max = some max ∧ max ≤ p.count := by
  unfold isFull Arity.isFull
  split
  · next max hmax => simp [hmax]
  · next hmax => simp [hmax]

end Progress

namespace Replay

variable {g : Grammar} {s s₁ : Replay} {word : String} {p : Progress} {slot m : Slot} {group : Nat}

/-! ## Exclusive groups -/

/-- The argument has taken its exclusive group, if it has one. -/
def Owns (s : Replay) (slot : Slot) : Prop :=
  ∀ group, slot.arg.group = some group → s.claimed.lookup group = some slot

/-- What taking a group leaves as it is: pending positionals may go, spellings may become used. -/
structure Narrows (s s₁ : Replay) : Prop where
  flagsOff : s₁.flagsOff = s.flagsOff
  positional : s₁.positional = s.positional
  flag : s₁.flag = s.flag
  values : s₁.values = s.values
  pending : s₁.pending.Sublist s.pending
  used : s.used ⊆ s₁.used

theorem Narrows.refl (s : Replay) : s.Narrows s :=
  ⟨rfl, rfl, rfl, rfl, List.Sublist.refl _, List.Subset.refl _⟩

theorem withGroupTaken_narrows : s.Narrows (s.withGroupTaken g group slot) :=
  ⟨rfl, rfl, rfl, rfl, List.filter_sublist, List.subset_append_left _ _⟩

/-- **An argument is let into its group unless another member took it.** -/
theorem claimGroup_eq_ok :
    s.claimGroup g slot = .ok s₁ ↔
      (s₁ = s ∧ ∀ group, slot.arg.group = some group →
        ∃ owner, s.claimed.lookup group = some owner ∧ owner.index = slot.index) ∨
      ∃ group, slot.arg.group = some group ∧ s.claimed.lookup group = none ∧
        s₁ = s.withGroupTaken g group slot := by
  unfold claimGroup
  cases hg : slot.arg.group with
  | none => simp [@eq_comm _ s₁]
  | some group =>
      cases hl : s.claimed.lookup group with
      | none => simp [hl, @eq_comm _ s₁, -List.lookup_eq_none_iff]
      | some owner =>
          by_cases hi : owner.index = slot.index
          · simp [hl, hi, @eq_comm _ s₁, -List.lookup_eq_none_iff]
          · simp [hl, hi, -List.lookup_eq_none_iff]

theorem claimGroup_narrows (h : s.claimGroup g slot = .ok s₁) : s.Narrows s₁ := by
  rcases claimGroup_eq_ok.mp h with ⟨rfl, -⟩ | ⟨group, -, -, rfl⟩
  · exact Narrows.refl _
  · exact withGroupTaken_narrows

/-- An argument that has taken its group may come again. -/
theorem claimGroup_of_owns (h : s.Owns slot) : s.claimGroup g slot = .ok s :=
  claimGroup_eq_ok.mpr (Or.inl ⟨rfl, fun group hg => ⟨slot, h group hg, rfl⟩⟩)

/-- An argument may take its group unless another has it. -/
theorem exists_claimGroup (h : ∀ {group owner}, slot.arg.group = some group →
    s.claimed.lookup group = some owner → owner = slot) : ∃ s₁, s.claimGroup g slot = .ok s₁ := by
  cases hgroup : slot.arg.group with
  | none => exact ⟨s, claimGroup_eq_ok.mpr (Or.inl ⟨rfl, by simp [hgroup]⟩)⟩
  | some group =>
      cases howner : s.claimed.lookup group with
      | none => exact ⟨_, claimGroup_eq_ok.mpr (Or.inr ⟨group, hgroup, howner, rfl⟩)⟩
      | some owner =>
          refine ⟨s, claimGroup_eq_ok.mpr (Or.inl ⟨rfl, ?_⟩)⟩
          intro k hk
          rw [hgroup, Option.some.injEq] at hk
          subst hk
          exact ⟨owner, howner, congrArg Slot.index (h hgroup howner)⟩

theorem withGroupTaken_claimed (k : Nat) :
    (s.withGroupTaken g group slot).claimed.lookup k =
      if k = group then some slot else s.claimed.lookup k := by
  unfold withGroupTaken
  simp only [List.lookup_cons]
  split <;> simp_all

/-- The other members of a group that is taken are not waited for. -/
theorem withGroupTaken_pending (hm : m ∈ g.groupMembers group) (hne : m ≠ slot)
    (hslot : slot ∈ g.slots) (hflag : m.arg.isFlag = false) :
    m ∉ (s.withGroupTaken g group slot).pending := by
  have hindex : m.index ≠ slot.index := fun h =>
    hne (Grammar.slot_eq_of_index_eq (Grammar.mem_groupMembers.mp hm).1 hslot h)
  intro hpending
  have hkept := (List.mem_filter.mp hpending).2
  simp only [Bool.not_eq_true', List.any_eq_false, List.mem_filter, bne_iff_ne] at hkept
  exact hkept m ⟨hm, hindex⟩ (by simp [hflag])

/-- Nor are their spellings offered. -/
theorem mem_withGroupTaken_used {a : String} (hslot : slot ∈ g.slots) :
    a ∈ (s.withGroupTaken g group slot).used ↔
      a ∈ s.used ∨ ∃ m ∈ g.groupMembers group, m ≠ slot ∧ a ∈ m.arg.aliases := by
  unfold withGroupTaken
  simp only [List.mem_append, List.mem_flatMap, List.mem_filter, bne_iff_ne]
  refine or_congr_right ⟨?_, ?_⟩
  · rintro ⟨m, ⟨⟨hm, hindex⟩, -⟩, ha⟩
    exact ⟨m, hm, fun h => hindex (congrArg Slot.index h), ha⟩
  · rintro ⟨m, hm, hne, ha⟩
    have hindex : m.index ≠ slot.index := fun h =>
      hne (Grammar.slot_eq_of_index_eq (Grammar.mem_groupMembers.mp hm).1 hslot h)
    exact ⟨m, ⟨⟨hm, hindex⟩, ArgDef.isFlag_of_mem_aliases ha⟩, ha⟩

theorem withGroupTaken_used (hm : m ∈ g.groupMembers group) (hne : m ≠ slot)
    (hslot : slot ∈ g.slots) : m.arg.aliases ⊆ (s.withGroupTaken g group slot).used := by
  intro a ha
  exact (mem_withGroupTaken_used hslot).mpr (Or.inr ⟨m, hm, hne, ha⟩)

/-! ## Flags -/

/-- A flag that takes values is active and decides whether others are still read. -/
theorem withFlag_eq (s : Replay) (slot : Slot) :
    s.withFlag slot =
      { s with
        values := s.valuesAtFlag slot
        used := if slot.arg.isReusable then s.used else s.used ++ slot.arg.aliases
        flag := if slot.arg.arity.takesNoValues then s.flag else some { slot }
        flagsOff := if slot.arg.arity.takesNoValues then s.flagsOff else slot.arg.isRemainder } := by
  unfold withFlag
  by_cases h : slot.arg.arity.takesNoValues = true
  · simp only [if_pos h]
  · simp only [if_neg h]

@[simp] theorem withFlag_pending : (s.withFlag slot).pending = s.pending := by rw [withFlag_eq]

@[simp] theorem withFlag_positional : (s.withFlag slot).positional = s.positional := by
  rw [withFlag_eq]

@[simp] theorem withFlag_claimed : (s.withFlag slot).claimed = s.claimed := by rw [withFlag_eq]

theorem mem_withFlag_used {a : String} :
    a ∈ (s.withFlag slot).used ↔
      a ∈ s.used ∨ (slot.arg.isReusable = false ∧ a ∈ slot.arg.aliases) := by
  rw [withFlag_eq]
  cases slot.arg.isReusable <;> simp

theorem withFlag_used : s.used ⊆ (s.withFlag slot).used := by
  intro a ha
  exact mem_withFlag_used.mpr (Or.inl ha)

/-! ## Positionals -/

/-- A positional stays active until it is full. One that takes everything that follows, active or
next in turn, turns flags off. -/
theorem withPositionalValue_eq (s : Replay) (p : Progress) (word : String) :
    s.withPositionalValue p word =
      { s with
        positional := if p.advance.isFull then none else some p.advance
        values := s.values.push p.arg.dest word
        flagsOff := s.flagsOff || p.isRemainder ||
          p.advance.isFull && s.pending.head?.any (·.arg.isRemainder) } := by
  unfold withPositionalValue
  simp only [Progress.consume, Progress.advance_isRemainder]
  by_cases hr : p.isRemainder = true
  · have hfull : p.advance.isFull = false := Progress.isFull_of_isRemainder hr
    simp [hr, hfull]
  · by_cases hfull : p.advance.isFull = true
    · simp [hr, hfull]
    · simp [hr, hfull]

@[simp] theorem withPositionalValue_pending :
    (s.withPositionalValue p word).pending = s.pending := by rw [withPositionalValue_eq]

@[simp] theorem withPositionalValue_flag : (s.withPositionalValue p word).flag = s.flag := by
  rw [withPositionalValue_eq]

@[simp] theorem withPositionalValue_used : (s.withPositionalValue p word).used = s.used := by
  rw [withPositionalValue_eq]

@[simp] theorem withPositionalValue_claimed :
    (s.withPositionalValue p word).claimed = s.claimed := by rw [withPositionalValue_eq]

@[simp] theorem withPositionalValue_values :
    (s.withPositionalValue p word).values = s.values.push p.arg.dest word := by
  rw [withPositionalValue_eq]

@[simp] theorem withPositionalValue_positional :
    (s.withPositionalValue p word).positional =
      if p.advance.isFull then none else some p.advance := by
  rw [withPositionalValue_eq]

theorem withPositionalValue_flagsOff (hr : p.isRemainder = true) :
    (s.withPositionalValue p word).flagsOff = true := by
  rw [withPositionalValue_eq]
  simp [hr]

end Replay

end TabCompletion
