import TabCompletion.Proofs.Replay.Effects
import TabCompletion.Proofs.Replay.Step

/-!
# The invariant of the replay

`Coherent` ties together the six fields of a state that decide what the next word is: which
arguments are taking values, which are waited for, whether flags are read, and which exclusive
groups are taken. It holds before any word (`start_coherent`) and every step preserves it
(`Coherent.step`), so it holds after every run (`feedAll_coherent`).
-/

namespace TabCompletion.Replay

variable {g : Grammar} {s s' s₁ : Replay} {word : String} {p : Progress} {slot c m : Slot}
  {group : Nat}

/-- An exclusive group that a member took: the other members are neither waited for nor offered. -/
structure GroupTaken (g : Grammar) (s : Replay) (group : Nat) (c : Slot) : Prop where
  mem : c ∈ g.groupMembers group
  pending : ∀ m ∈ g.groupMembers group, m ≠ c → m ∉ s.pending
  used : ∀ m ∈ g.groupMembers group, m ≠ c → m.arg.aliases ⊆ s.used

/-- A flag that is taking values may take one more. Flags are off just if it takes everything. -/
structure ActiveFlag (g : Grammar) (s : Replay) (p : Progress) : Prop where
  mem : p.slot ∈ g.slots
  isFlag : p.arg.isFlag = true
  room : p.isFull = false
  flagsOff : s.flagsOff = p.isRemainder
  owns : s.Owns p.slot

/-- A positional that is taking values has one and may take one more. -/
structure ActivePositional (g : Grammar) (s : Replay) (p : Progress) : Prop where
  mem : p.slot ∈ g.positionals
  notDispatch : p.arg.isDispatch = false
  begun : 1 ≤ p.count
  room : p.isFull = false
  remainder : p.isRemainder = true → s.flagsOff = true ∧ s.flag = none
  notPending : p.slot ∉ s.pending
  owns : s.Owns p.slot

/-- The invariant of the replay. -/
structure Coherent (g : Grammar) (s : Replay) : Prop where
  pending : s.pending.Sublist g.positionals
  taken : ∀ {group c}, s.claimed.lookup group = some c → GroupTaken g s group c
  flag : ∀ {p}, s.flag = some p → ActiveFlag g s p
  positional : ∀ {p}, s.positional = some p → ActivePositional g s p

theorem start_coherent (g : Grammar) : Coherent g (start g) where
  pending := List.Sublist.refl _
  taken := by simp [start]
  flag := by simp [start]
  positional := by simp [start]

/-- The next positional is one of the grammar. -/
theorem Coherent.next_mem {rest : List Slot} (h : Coherent g s) (hpending : s.pending = slot :: rest) :
    slot ∈ g.positionals := by
  apply h.pending.subset
  rw [hpending]
  exact List.mem_cons_self

/-! ## Frames -/

theorem GroupTaken.mono (h : GroupTaken g s group c) (hpending : s'.pending ⊆ s.pending)
    (hused : s.used ⊆ s'.used) : GroupTaken g s' group c where
  mem := h.mem
  pending m hm hne hin := h.pending m hm hne (hpending hin)
  used m hm hne := List.Subset.trans (h.used m hm hne) hused

theorem Owns.congr (h : s.Owns slot) (hclaimed : s'.claimed = s.claimed) : s'.Owns slot := by
  intro group hg
  rw [hclaimed]
  exact h group hg

theorem ActiveFlag.congr (h : ActiveFlag g s p) (hoff : s'.flagsOff = s.flagsOff)
    (hclaimed : s'.claimed = s.claimed) : ActiveFlag g s' p :=
  { h with flagsOff := hoff.trans h.flagsOff, owns := h.owns.congr hclaimed }

theorem ActivePositional.congr (h : ActivePositional g s p)
    (hremainder : p.isRemainder = true → s'.flagsOff = true ∧ s'.flag = none)
    (hpending : s'.pending ⊆ s.pending) (hclaimed : s'.claimed = s.claimed) :
    ActivePositional g s' p :=
  { h with
    remainder := hremainder
    notPending := fun hin => h.notPending (hpending hin)
    owns := h.owns.congr hclaimed }

/-- A state that waits for no more and offers no more, and whose active arguments are in order, is
coherent. -/
theorem Coherent.congr (h : Coherent g s) (hpending : s'.pending.Sublist s.pending)
    (hused : s.used ⊆ s'.used) (hclaimed : s'.claimed = s.claimed)
    (hflag : ∀ {p}, s'.flag = some p → ActiveFlag g s' p)
    (hpositional : ∀ {p}, s'.positional = some p → ActivePositional g s' p) : Coherent g s' where
  pending := hpending.trans h.pending
  taken hc := (h.taken (hclaimed ▸ hc)).mono hpending.subset hused
  flag := hflag
  positional := hpositional

/-- No flag is active any more, and flags may be turned off. -/
theorem Coherent.withoutFlag (h : Coherent g s) {off : Bool} (hoff : s.flagsOff = true → off = true) :
    Coherent g { s with flag := none, flagsOff := off } := by
  refine h.congr (List.Sublist.refl _) (List.Subset.refl _) rfl (fun hf => nomatch hf) ?_
  intro p hp
  have hactive := h.positional hp
  exact hactive.congr (fun hr => ⟨hoff (hactive.remainder hr).1, rfl⟩) (List.Subset.refl _) rfl

/-- The first pending positional is waited for no longer. -/
theorem Coherent.withoutNext {rest : List Slot} (h : Coherent g s)
    (hpending : s.pending = slot :: rest) : Coherent g { s with pending := rest } := by
  have hrest : rest.Sublist s.pending := hpending ▸ List.sublist_cons_self slot rest
  refine h.congr hrest (List.Subset.refl _) rfl ?_ ?_
  · intro p hp
    exact (h.flag hp).congr rfl rfl
  · intro p hp
    have hactive := h.positional hp
    exact hactive.congr hactive.remainder hrest.subset rfl

/-! ## Taking a group -/

theorem Owns.withGroupTaken (h : s.Owns m) (hfree : s.claimed.lookup group = none) :
    (s.withGroupTaken g group slot).Owns m := by
  intro k hk
  have howner := h k hk
  rw [withGroupTaken_claimed, if_neg]
  · exact howner
  · rintro rfl
    rw [hfree] at howner
    contradiction

theorem Coherent.withGroupTaken (h : Coherent g s) (hslot : slot ∈ g.slots)
    (hgroup : slot.arg.group = some group) (hfree : s.claimed.lookup group = none) :
    Coherent g (s.withGroupTaken g group slot) := by
  have hn : s.Narrows (s.withGroupTaken g group slot) := withGroupTaken_narrows
  refine ⟨hn.pending.trans h.pending, ?_, ?_, ?_⟩
  · intro k c hc
    rw [withGroupTaken_claimed] at hc
    split at hc
    · -- The group that `slot` takes now.
      next hk =>
        subst hk
        cases hc
        refine ⟨Grammar.mem_groupMembers.mpr ⟨hslot, hgroup⟩, ?_, ?_⟩
        · intro m hm hne hin
          have hpositional := (hn.pending.trans h.pending).subset hin
          have hflag := (Grammar.mem_positionals.mp hpositional).2
          exact withGroupTaken_pending hm hne hslot hflag hin
        · intro m hm hne
          exact withGroupTaken_used hm hne hslot
    · exact (h.taken hc).mono hn.pending.subset hn.used
  · intro p hp
    have hactive := h.flag hp
    exact { hactive with owns := hactive.owns.withGroupTaken hfree }
  · intro p hp
    have hactive := h.positional hp
    exact
      { hactive with
        notPending := fun hin => hactive.notPending (hn.pending.subset hin)
        owns := hactive.owns.withGroupTaken hfree }

/-- **Taking a group keeps the invariant, and the argument has its group then.** -/
theorem Coherent.claimGroup (h : Coherent g s) (hslot : slot ∈ g.slots)
    (hclaim : s.claimGroup g slot = .ok s₁) : Coherent g s₁ ∧ s₁.Owns slot := by
  rcases claimGroup_eq_ok.mp hclaim with ⟨rfl, hown⟩ | ⟨group, hgroup, hfree, rfl⟩
  · refine ⟨h, ?_⟩
    intro group hgroup
    obtain ⟨owner, howner, hindex⟩ := hown group hgroup
    -- The owner's place is the argument's, so it is the argument.
    have hmem := (Grammar.mem_groupMembers.mp (h.taken howner).mem).1
    rw [howner, Grammar.slot_eq_of_index_eq hmem hslot hindex]
  · refine ⟨h.withGroupTaken hslot hgroup hfree, ?_⟩
    intro k hk
    have hkg : k = group := by
      rw [hgroup] at hk
      exact (Option.some.inj hk).symm
    rw [withGroupTaken_claimed, if_pos hkg]

/-! ## Flags and positionals -/

/-- A flag that is met begins to take values, or takes none. -/
theorem Coherent.withFlag (h : Coherent g s) (hflag : s.flag = none) (hoff : s.flagsOff = false)
    (hslot : slot ∈ g.slots) (hisFlag : slot.arg.isFlag = true) (howns : s.Owns slot) :
    Coherent g (s.withFlag slot) := by
  refine h.congr (by simp) withFlag_used (by simp) ?_ ?_
  · intro p hp
    rw [withFlag_eq] at hp ⊢
    by_cases hnone : slot.arg.arity.takesNoValues = true
    · simp [hnone, hflag] at hp
    · simp only [if_neg hnone, Option.some.injEq] at hp
      subst hp
      refine ⟨hslot, hisFlag, ?_, if_neg hnone, howns⟩
      rw [Progress.isFull_eq_false]
      intro max hmax
      have hpos : max ≠ 0 := by
        rintro rfl
        have hzero : slot.arg.arity.max = some 0 := hmax
        exact hnone (by simp [Arity.takesNoValues, hzero])
      show 0 < max
      omega
  · intro p hp
    rw [withFlag_positional] at hp
    have hactive := h.positional hp
    refine hactive.congr ?_ (by simp) (by simp)
    -- Flags were read, so the positional does not take everything.
    intro hr
    rw [(hactive.remainder hr).1] at hoff
    contradiction

/-- A positional that is given a word stays active until it is full. -/
theorem Coherent.withPositionalValue (h : Coherent g s) (hflag : s.flag = none)
    (hmem : p.slot ∈ g.positionals) (hdispatch : p.arg.isDispatch = false)
    (hpending : p.slot ∉ s.pending) (howns : s.Owns p.slot) :
    Coherent g (s.withPositionalValue p word) := by
  refine h.congr (by simp) (by simp) (by simp) ?_ ?_
  · intro q hq
    rw [withPositionalValue_flag, hflag] at hq
    contradiction
  · intro q hq
    rw [withPositionalValue_positional] at hq
    split at hq
    · contradiction
    · next hfull =>
        cases hq
        refine ⟨hmem, hdispatch, by simp, by simpa using hfull, ?_, by simpa using hpending, ?_⟩
        · intro hr
          exact ⟨withPositionalValue_flagsOff hr, by simpa using hflag⟩
        · exact howns.congr (by simp)

/-! ## Steps and runs -/

/-- **Every step preserves the invariant.** -/
theorem Coherent.step {r : Role} (h : Coherent g s) (hstep : Step g s word r s') :
    Coherent g s' := by
  cases hstep with
  | @remainderValue p hp hr =>
      have hactive := h.positional hp
      refine h.congr (List.Sublist.refl _) (List.Subset.refl _) rfl ?_ ?_
      · intro q hq
        exact (h.flag hq).congr rfl rfl
      · intro q hq
        cases hq
        exact
          { hactive.congr hactive.remainder (List.Subset.refl _) rfl with
            begun := Nat.le_add_left 1 p.count
            room := Progress.isFull_of_isRemainder hr }
  | @remainderFlagValue p ho hf hr hw =>
      refine h.congr (List.Sublist.refl _) (List.Subset.refl _) rfl ?_ ?_
      · intro q hq
        cases hq
        exact { (h.flag hf).congr rfl rfl with room := Progress.isFull_of_isRemainder hr }
      · -- A positional beside the flag does not take everything.
        intro q hq
        refine (h.positional hq).congr ?_ (List.Subset.refl _) rfl
        intro hqr
        rw [ho q hq] at hqr
        contradiction
  | remainderFlagEnd ho hf hr hw => exact h.withoutFlag id
  | endOfOptions ho hoff hw hdone => exact h.withoutFlag fun _ => rfl
  | unknownFlag ho hoff hw hlook hdone hmatch => exact h.withoutFlag id
  | @flag slot s₁ ho hoff hw hlook hdone hmatch hclaim =>
      obtain ⟨hslot, hisFlag⟩ := Grammar.matchFlag?_mem hmatch
      obtain ⟨h₁, howns⟩ := (h.withoutFlag id).claimGroup hslot hclaim
      have hn := claimGroup_narrows hclaim
      exact h₁.withFlag hn.flag (hn.flagsOff.trans hoff) hslot hisFlag howns
  | @flagValue p ho hv hf =>
      have hactive := h.flag hf
      refine h.congr (List.Sublist.refl _) (List.Subset.refl _) rfl ?_ ?_
      · intro q hq
        split at hq
        · contradiction
        · next hfull =>
            cases hq
            exact { hactive.congr rfl rfl with room := by simpa using hfull }
      · -- As above, the positional does not take everything.
        intro q hq
        refine (h.positional hq).congr ?_ (List.Subset.refl _) rfl
        intro hqr
        rw [ho.positional q hq] at hqr
        contradiction
  | passedOver ho hv hf hp hpending => exact h
  | @activeValue p s₁ ho hv hf hp hclaim =>
      have hactive := h.positional hp
      have hslot := (Grammar.mem_positionals.mp hactive.mem).1
      obtain ⟨h₁, howns⟩ := h.claimGroup hslot hclaim
      have hn := claimGroup_narrows hclaim
      exact h₁.withPositionalValue (hn.flag.trans hf) hactive.mem hactive.notDispatch
        (fun hin => hactive.notPending (hn.pending.subset hin)) howns
  | @nextValue slot rest s₁ ho hv hf hp hpending hsub hclaim =>
      have hall : (slot :: rest).Sublist g.positionals := hpending ▸ h.pending
      have hmem : slot ∈ g.positionals := hall.subset List.mem_cons_self
      -- Each positional is waited for once.
      have honce : slot ∉ rest := (List.nodup_cons.mp (g.positionals_nodup.sublist hall)).1
      have hslot := (Grammar.mem_positionals.mp hmem).1
      obtain ⟨h₁, howns⟩ := (h.withoutNext hpending).claimGroup hslot hclaim
      have hn := claimGroup_narrows hclaim
      exact h₁.withPositionalValue (hn.flag.trans hf) hmem (ArgDef.isDispatch_eq_false.mpr hsub)
        (fun hin => honce (hn.pending.subset hin)) howns

theorem feedAll_coherent {words : List String}
    (h : feedAll g (start g) words = .ok (.next s)) : Coherent g s :=
  feedAll_invariant Coherent.step (start_coherent g) h

/-- An argument that is taking values has taken its group, so no other member is. -/
theorem Coherent.slot_ne (h : Coherent g s) (hc : s.claimed.lookup group = some c)
    (hm : m ∈ g.groupMembers group) (hne : m ≠ c) (hp : s.flag = some p ∨ s.positional = some p) :
    p.slot ≠ m := by
  rintro rfl
  have howns : s.Owns p.slot := hp.elim (fun hf => (h.flag hf).owns) fun hp => (h.positional hp).owns
  rw [howns group (Grammar.mem_groupMembers.mp hm).2] at hc
  exact hne (Option.some.inj hc)

/-- **What holds of the state after every run.** An active flag is a flag with room for a value; an
active positional is no dispatch argument, has a value and room for another; flags are off while an
active argument takes everything that follows; the pending positionals are positionals in their
order, without the active one; and of a group that is taken no other member is pending, active or,
if it is a flag, offered. -/
theorem feedAll_wellFormed {words : List String}
    (h : feedAll g (start g) words = .ok (.next s)) :
    (∀ p, s.flag = some p → p.slot ∈ g.slots ∧ p.arg.isFlag = true ∧
      ∀ max, p.arg.arity.max = some max → p.count < max) ∧
    (∀ p, s.positional = some p → p.slot ∈ g.positionals ∧ p.arg.isDispatch = false ∧
      1 ≤ p.count ∧ p.isFull = false) ∧
    ((∀ p, s.positional = some p → p.isRemainder = true → s.flagsOff = true ∧ s.flag = none) ∧
      ∀ p, s.flag = some p → (s.flagsOff = true ↔ p.isRemainder = true)) ∧
    (s.pending.Sublist g.positionals ∧ ∀ p, s.positional = some p → p.slot ∉ s.pending) ∧
    ∀ group c, s.claimed.lookup group = some c → c ∈ g.groupMembers group ∧
      ∀ m ∈ g.groupMembers group, m ≠ c →
        m ∉ s.pending ∧ (∀ p, s.flag = some p ∨ s.positional = some p → p.slot ≠ m) ∧
          (m.arg.isFlag = true → ∀ a ∈ m.arg.aliases, a ∈ s.used) := by
  have hs := feedAll_coherent h
  refine ⟨?_, ?_, ⟨?_, ?_⟩, ⟨hs.pending, ?_⟩, ?_⟩
  · intro p hp
    have hactive := hs.flag hp
    exact ⟨hactive.mem, hactive.isFlag, Progress.isFull_eq_false.mp hactive.room⟩
  · intro p hp
    have hactive := hs.positional hp
    exact ⟨hactive.mem, hactive.notDispatch, hactive.begun, hactive.room⟩
  · intro p hp
    exact (hs.positional hp).remainder
  · intro p hp
    rw [(hs.flag hp).flagsOff]
  · intro p hp
    exact (hs.positional hp).notPending
  · intro group c hc
    have htaken := hs.taken hc
    refine ⟨htaken.mem, ?_⟩
    intro m hm hne
    exact ⟨htaken.pending m hm hne, fun p hp => hs.slot_ne hc hm hne hp,
      fun _ a ha => htaken.used m hm hne ha⟩

/-- A command whose flag and whose positional exclude each other. -/
def eitherOr : Grammar :=
  let arg (kind : ArgKind Grammar) (dest : String) (nargs : Nargs) : ArgDef Grammar :=
    { kind, dest, nargs, action := .append, choices := none, help := none, hidden := false
      metavar := none, required := false, suppressTabHint := false, descriptiveHeader := none
      group := some 0 }
  { (default : Grammar) with
    args := [arg (.flag ["--all"]) "all" (.exactly 0), arg .positional "names" .oneOrMore]
    groups := [true] }

theorem names_active_after_two_words :
    ∃ s p, feedAll eitherOr (start eitherOr) ["a", "b"] = .ok (.next s) ∧
      s.positional = some p ∧ p.count = 2 ∧ p.isFull = false ∧ p.slot ∉ s.pending ∧
      ∀ m ∈ eitherOr.groupMembers 0, m ≠ p.slot → ∀ a ∈ m.arg.aliases, a ∈ s.used := by
  obtain ⟨s, p, hrun, hp, hcount, hc⟩ :
      ∃ s p, feedAll eitherOr (start eitherOr) ["a", "b"] = .ok (.next s) ∧
        s.positional = some p ∧ p.count = 2 ∧ s.claimed.lookup 0 = some p.slot :=
    ⟨_, _, rfl, rfl, rfl, rfl⟩
  obtain ⟨-, hpositional, -, ⟨-, hpending⟩, hgroups⟩ := feedAll_wellFormed hrun
  refine ⟨s, p, hrun, hp, hcount, (hpositional p hp).2.2.2, hpending p hp, ?_⟩
  intro m hm hne a ha
  exact ((hgroups 0 p.slot hc).2 m hm hne).2.2 (ArgDef.isFlag_of_mem_aliases ha) a ha

end TabCompletion.Replay
