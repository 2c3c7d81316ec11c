import TabCompletion.Proofs.Replay.History
import TabCompletion.Proofs.Replay.Target

/-!
# Exclusive groups

Of an exclusive group at most one member comes into use, by whatever words. A second member is
refused where a word names it as a flag; a positional never conflicts, because it is not waited for
any more once a rival has its group (`Coherent.feedPositional_ne_conflict`).
-/

namespace TabCompletion.Replay

variable {g : Grammar} {s : Replay} {word name other : String} {words : List String} {m c : Slot}
  {group : Nat}

/-! ## Conflicts -/

/-- **An argument is refused just if a rival has its group.** -/
theorem Coherent.claimGroup_eq_error (h : Coherent g s) (hm : m ∈ g.slots) :
    s.claimGroup g m = .error (.mutexConflict name other) ↔
      ∃ group c, m.arg.group = some group ∧ s.claimed.lookup group = some c ∧ c ≠ m ∧
        name = m.arg.displayName ∧ other = c.arg.displayName := by
  unfold Replay.claimGroup
  cases hgroup : m.arg.group with
  | none => simp
  | some group =>
      cases hc : s.claimed.lookup group with
      | none => simp [hc, -List.lookup_eq_none_iff]
      | some c =>
          have hslot := (Grammar.mem_groupMembers.mp (h.taken hc).mem).1
          by_cases hcm : c = m
          · simp [hc, hcm]
          · have hindex : ¬ c.index = m.index := fun hi =>
              hcm (Grammar.slot_eq_of_index_eq hslot hm hi)
            simp only [hc, if_neg hindex]
            constructor
            · intro hrefused
              cases hrefused
              exact ⟨group, c, rfl, hc, hcm, rfl, rfl⟩
            · rintro ⟨k, d, hk, hd, -, rfl, rfl⟩
              cases hk
              rw [hc] at hd
              cases hd
              rfl

theorem checkFlag_ne_conflict (s : Replay) (name other : String) :
    s.checkFlag ≠ .error (.mutexConflict name other) := by
  unfold checkFlag
  split
  · split
    · intro h
      cases h
    · intro h
      cases h
  · intro h
    cases h

/-- **A word for a positional never conflicts.** -/
theorem Coherent.feedPositional_ne_conflict (h : Coherent g s) :
    s.feedPositional g word ≠ .error (.mutexConflict name other) := by
  cases hp : s.positional with
  | some p =>
      -- The active positional has its group.
      have hclaim := claimGroup_of_owns (g := g) (h.positional hp).owns
      rw [feedPositional_of_active hp, feedValue, hclaim]
      simp [Except.map]
  | none =>
      cases hpending : s.pending with
      | nil => simp [feedPositional_of_nil hp hpending]
      | cons slot rest =>
          cases hsub : slot.arg.subcommands? with
          | some subs =>
              simp only [feedPositional, hp, hpending, hsub]
              cases subs.lookup word <;> simp
          | none =>
              -- A rival with its group would have removed it from the pending ones.
              obtain ⟨s₁, hclaim⟩ := h.claimGroup_of_next hpending
              rw [feedPositional_of_pending hp hpending hsub, feedValue, hclaim]
              simp [Except.map]

/-- **A word conflicts just if it is read as a flag whose group a rival has.** -/
theorem Coherent.feed_conflict_iff (h : Coherent g s) :
    s.feed g word = .error (.mutexConflict name other) ↔
      s.reading g word = .flag ∧ s.checkFlag = .ok () ∧
        ∃ m group c, g.matchFlag? word = some m ∧ m.arg.group = some group ∧
          s.claimed.lookup group = some c ∧ c ≠ m ∧
          name = m.arg.displayName ∧ other = c.arg.displayName := by
  unfold feed
  cases hread : s.reading g word with
  | remainderValue p => simp
  | remainderFlagValue p => simp
  | remainderFlagEnd => simp
  | endOfOptions =>
      cases hdone : s.checkFlag with
      | error e =>
          have hne := checkFlag_ne_conflict s name other
          simpa [hdone] using hne
      | ok u => simp
  | flagValue p => simp
  | positional => simpa using h.feedPositional_ne_conflict
  | flag =>
      cases hdone : s.checkFlag with
      | error e =>
          have hne := checkFlag_ne_conflict s name other
          simpa [hdone] using hne
      | ok u =>
          simp only [feedFlag, true_and]
          cases hmatch : g.matchFlag? word with
          | none => simp [Except.map]
          | some m =>
              have hslot := (Grammar.matchFlag?_mem hmatch).1
              have hrefused : ({ s with flag := none } : Replay).claimGroup g m =
                  .error (.mutexConflict name other) ↔ _ :=
                (h.withoutFlag id).claimGroup_eq_error hslot
              cases hclaim : ({ s with flag := none } : Replay).claimGroup g m with
              | error e => simpa [hclaim, Except.map] using hrefused
              | ok s₁ => simpa [hclaim, Except.map] using hrefused

/-! ## Whole runs -/

/-- **Exclusive groups are exclusive.** Whatever the words, of each group at most one member comes
into use. In the state after a run the owner of a group is the member that did; a word conflicts
just if no flag is waiting for values, the word is read as a flag and names a member of a group that
another member owns, and the complaint names both; a word that is read as anything else never
conflicts. -/
theorem groups_exclusive (g : Grammar) (words : List String) :
    (∀ group, ∀ m ∈ g.groupMembers group, ∀ c ∈ g.groupMembers group,
      m ∈ entrants (roles g (start g) words) → c ∈ entrants (roles g (start g) words) → m = c) ∧
    ∀ s, feedAll g (start g) words = .ok (.next s) →
      (∀ group c, s.claimed.lookup group = some c ↔
        c ∈ g.groupMembers group ∧ c ∈ entrants (roles g (start g) words)) ∧
      (∀ word name other, s.feed g word = .error (.mutexConflict name other) ↔
        s.reading g word = .flag ∧ s.checkFlag = .ok () ∧
          ∃ m group c, g.matchFlag? word = some m ∧ m.arg.group = some group ∧
            s.claimed.lookup group = some c ∧ c ≠ m ∧
            name = m.arg.displayName ∧ other = c.arg.displayName) ∧
      ∀ word name other, s.reading g word ≠ .flag →
        s.feed g word ≠ .error (.mutexConflict name other) := by
  constructor
  · intro group m hm c hc hmin hcin
    obtain ⟨s, hs, -⟩ := roles_invariant Recorded.step (start_recorded g) words
    rw [List.nil_append] at hs
    -- Both own the group where reading ends.
    have hmowns := (hs.claimed group m).mpr ⟨hmin, (Grammar.mem_groupMembers.mp hm).2⟩
    have hcowns := (hs.claimed group c).mpr ⟨hcin, (Grammar.mem_groupMembers.mp hc).2⟩
    rw [hmowns] at hcowns
    exact Option.some.inj hcowns
  · intro s hrun
    have hs := feedAll_recorded hrun
    refine ⟨?_, fun word name other => hs.coherent.feed_conflict_iff, ?_⟩
    · intro group c
      rw [hs.claimed, Grammar.mem_groupMembers]
      constructor
      · rintro ⟨hcin, hgroup⟩
        exact ⟨⟨hs.mem c hcin, hgroup⟩, hcin⟩
      · rintro ⟨⟨-, hgroup⟩, hcin⟩
        exact ⟨hcin, hgroup⟩
    · intro word name other hread hconflict
      exact hread (hs.coherent.feed_conflict_iff.mp hconflict).1

theorem flag_after_name_conflicts :
    ∃ s, feedAll eitherOr (start eitherOr) ["a"] = .ok (.next s) ∧
      s.feed eitherOr "--all" = .error (.mutexConflict "--all" "names") ∧
      ∀ name other, s.feed eitherOr "b" ≠ .error (.mutexConflict name other) := by
  obtain ⟨s, m, c, hrun, hread, hvalue, hdone, hmatch, hgroup, hc, hne, hnames⟩ :
      ∃ s m c, feedAll eitherOr (start eitherOr) ["a"] = .ok (.next s) ∧
        s.reading eitherOr "--all" = .flag ∧ s.reading eitherOr "b" ≠ .flag ∧
        s.checkFlag = .ok () ∧ eitherOr.matchFlag? "--all" = some m ∧ m.arg.group = some 0 ∧
        s.claimed.lookup 0 = some c ∧ c.index ≠ m.index ∧
        "--all" = m.arg.displayName ∧ "names" = c.arg.displayName :=
    ⟨_, _, _, rfl, rfl, nofun, rfl, rfl, rfl, rfl, nofun, rfl, rfl⟩
  obtain ⟨-, hconflict, hpositional⟩ := (groups_exclusive eitherOr ["a"]).2 s hrun
  refine ⟨s, hrun, ?_, fun name other => hpositional "b" name other hvalue⟩
  rw [hconflict]
  exact ⟨hread, hdone, m, 0, c, hmatch, hgroup, hc, fun h => hne (congrArg Slot.index h), hnames⟩

end TabCompletion.Replay
