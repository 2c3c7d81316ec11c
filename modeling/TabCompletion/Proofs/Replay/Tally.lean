import TabCompletion.Grammar.Builder
import TabCompletion.Proofs.Replay.History
import TabCompletion.Proofs.Replay.Target

/-!
# How many values an argument takes

`valuesOf` counts the words of a run that became values of an argument. What an active argument has
counted itself is no less than what it was given since it was last named (`Tallied`), and it is given
a word only while it has room. So no flag takes more values than it may each time that it is named,
nor does a positional over the whole run, one that may take none apart: the first word that reaches
it is taken all the same (`values_within_arity`).
-/

namespace TabCompletion

/-- Whether a word became a value of the argument. -/
def Role.isValueOf (slot : Slot) : Role → Bool
  | .value m => m.index == slot.index
  | _ => false

/-- How many of the words became values of the argument. -/
def valuesOf (slot : Slot) (rs : List Role) : Nat := rs.countP (·.isValueOf slot)

namespace Replay

variable {g : Grammar} {s s' : Replay} {word : String} {words : List String} {r : Role}
  {rs during : List Role} {p : Progress} {m slot : Slot} {n : Nat}

/-! ## Counting -/

@[simp] theorem valuesOf_nil : valuesOf slot [] = 0 := rfl

@[simp] theorem valuesOf_append_self : valuesOf slot (rs ++ [.value slot]) = valuesOf slot rs + 1 := by
  simp [valuesOf, List.countP_append, Role.isValueOf]

theorem valuesOf_append_other (h : r.isValueOf slot = false) :
    valuesOf slot (rs ++ [r]) = valuesOf slot rs := by
  simp [valuesOf, List.countP_append, h]

/-- A value of one argument is no value of another. -/
theorem isValueOf_of_ne (hm : m ∈ g.slots) (hslot : slot ∈ g.slots) (hne : m ≠ slot) :
    (Role.value m).isValueOf slot = false := by
  have hindex : m.index ≠ slot.index := fun h => hne (Grammar.slot_eq_of_index_eq hm hslot h)
  exact beq_false_of_ne hindex

/-- A stretch of a longer run is one of the run before, or ends with its last word. -/
theorem infix_concat_cases (h : during <:+: rs ++ [r]) :
    during <:+: rs ∨ ∃ before, during = before ++ [r] ∧ before <:+ rs := by
  rcases List.infix_concat_iff.mp h with h | h
  · rcases List.suffix_concat_iff.mp h with rfl | hlast
    · exact Or.inl (List.nil_infix)
    · exact Or.inr hlast
  · exact Or.inl h

/-! ## Who has room -/

/-- The greatest number of values that an argument is given at a stretch: a positional is given one
before it is asked whether it is full. -/
def mostTaken (slot : Slot) (n : Nat) : Nat := if slot.arg.isFlag then n else max n 1

theorem Coherent.receiver_lt (h : Coherent g s) (hr : s.receiver = some p)
    (hmax : p.arg.arity.max = some n) : p.count < mostTaken p.slot n := by
  unfold mostTaken
  rcases receiver_cases hr with hf | ⟨-, hp⟩ | ⟨-, -, slot, rest, hpending, rfl⟩
  · have hactive := h.flag hf
    have hroom := Progress.isFull_eq_false.mp hactive.room n hmax
    have hflag : p.slot.arg.isFlag = true := hactive.isFlag
    rw [if_pos hflag]
    exact hroom
  · have hactive := h.positional hp
    have hroom := Progress.isFull_eq_false.mp hactive.room n hmax
    have hflag : p.slot.arg.isFlag = false := (Grammar.mem_positionals.mp hactive.mem).2
    rw [hflag, if_neg Bool.false_ne_true]
    exact Nat.lt_of_lt_of_le hroom (Nat.le_max_left n 1)
  · -- It was not active, so nothing asked whether it has room.
    have hflag : slot.arg.isFlag = false := (Grammar.mem_positionals.mp (h.next_mem hpending)).2
    rw [hflag, if_neg Bool.false_ne_true]
    exact Nat.lt_of_lt_of_le Nat.zero_lt_one (Nat.le_max_right n 1)

theorem Coherent.flag_not_mem_positionals (h : Coherent g s) (hf : s.flag = some p) :
    p.slot ∉ g.positionals := by
  intro hpositional
  have hnone := (Grammar.mem_positionals.mp hpositional).2
  rw [show p.slot.arg.isFlag = true from (h.flag hf).isFlag] at hnone
  contradiction

/-! ## What a step does to those who take values -/

theorem Step.pending_subset (hstep : Step g s word r s') : s'.pending ⊆ s.pending := by
  cases hstep with
  | remainderValue | remainderFlagValue | remainderFlagEnd | endOfOptions | unknownFlag | flagValue
  | passedOver => exact List.Subset.refl _
  | flag ho hoff hw hlook hdone hmatch hclaim =>
      rw [withFlag_pending]
      exact (claimGroup_narrows hclaim).pending.subset
  | activeValue ho hv hf hp hclaim =>
      rw [withPositionalValue_pending]
      exact (claimGroup_narrows hclaim).pending.subset
  | nextValue ho hv hf hp hpending hsub hclaim =>
      rw [withPositionalValue_pending, hpending]
      exact List.Subset.trans (claimGroup_narrows hclaim).pending.subset (List.subset_cons_self _ _)

/-- An argument that was given a word is not waited for. -/
theorem Step.not_mem_pending (h : Coherent g s) (hstep : Step g s word (.value slot) s') :
    slot ∉ s'.pending := by
  have hflag : ∀ {p}, s.flag = some p → p.slot ∉ s.pending :=
    fun hf hin => h.flag_not_mem_positionals hf (h.pending.subset hin)
  cases hstep with
  | remainderValue hp hr => exact (h.positional hp).notPending
  | remainderFlagValue ho hf hr hw => exact hflag hf
  | flagValue ho hv hf => exact hflag hf
  | activeValue ho hv hf hp hclaim =>
      rw [withPositionalValue_pending]
      intro hin
      exact (h.positional hp).notPending ((claimGroup_narrows hclaim).pending.subset hin)
  | nextValue ho hv hf hp hpending hsub hclaim =>
      rw [withPositionalValue_pending]
      intro hin
      have honce := g.positionals_nodup.sublist (hpending ▸ h.pending)
      exact (List.nodup_cons.mp honce).1 ((claimGroup_narrows hclaim).pending.subset hin)

/-- A word that is no value of an argument leaves the active positional as it is, and a flag that is
active after it was named by it. -/
theorem Step.active_of_ne_value (hstep : Step g s word r s') (hr : ∀ slot, r ≠ .value slot) :
    s'.positional = s.positional ∧
      ∀ p, s'.flag = some p → r = .flag (some p.slot) ∧ p.count = 0 := by
  cases hstep with
  | remainderValue | remainderFlagValue | flagValue | activeValue | nextValue =>
      exact (hr _ rfl).elim
  | remainderFlagEnd | endOfOptions | unknownFlag => exact ⟨rfl, by simp⟩
  | passedOver ho hv hf hp hpending => exact ⟨rfl, by simp [hf]⟩
  | flag ho hoff hw hlook hdone hmatch hclaim =>
      have hn := claimGroup_narrows hclaim
      refine ⟨by rw [withFlag_positional, hn.positional], ?_⟩
      intro p hp
      rw [withFlag_eq] at hp
      simp only [hn.flag] at hp
      split at hp
      · contradiction
      · cases hp
        exact ⟨rfl, rfl⟩

/-- The argument that is given a word has one value more, if it is still active. Any other that is
active was so before. -/
theorem Step.active_of_value (h : Coherent g s) (hr : s.receiver = some p)
    (hreceives : s.Receives p word s') {q : Progress}
    (hq : s'.flag = some q ∨ s'.positional = some q) :
    q = p.advance ∨ (q.slot ≠ p.slot ∧ s.positional = some q) := by
  rw [hreceives.flag, hreceives.positional] at hq
  cases hf : s.flag with
  | none =>
      simp only [hf, Option.isSome_none, Bool.false_eq_true, if_false] at hq
      rcases hq with hq | hq
      · contradiction
      · split at hq
        · contradiction
        · cases hq
          exact Or.inl rfl
  | some f =>
      simp only [hf, Option.isSome_some, if_true] at hq
      rcases hq with hq | hq
      · split at hq
        · contradiction
        · cases hq
          exact Or.inl rfl
      · refine Or.inr ⟨?_, hq⟩
        intro hslot
        -- The receiver is the active flag, and no positional is a flag.
        rw [receiver_of_flag hf] at hr
        cases hr
        apply h.flag_not_mem_positionals hf
        rw [← hslot]
        exact (h.positional hq).mem

/-! ## The tally of a run -/

/-- No argument was given more words than it has counted, and none more than it takes, at any stretch
of words that do not name it. -/
structure Tallied (g : Grammar) (rs : List Role) (s : Replay) : Prop where
  coherent : Coherent g s
  pending : ∀ slot ∈ s.pending, valuesOf slot rs = 0
  active : ∀ {p during}, s.flag = some p ∨ s.positional = some p → during <:+ rs →
    Role.flag (some p.slot) ∉ during → valuesOf p.slot during ≤ p.count
  within : ∀ {slot n during}, slot ∈ g.slots → slot.arg.arity.max = some n → during <:+: rs →
    Role.flag (some slot) ∉ during → valuesOf slot during ≤ mostTaken slot n

theorem start_tallied (g : Grammar) : Tallied g [] (start g) where
  coherent := start_coherent g
  pending := by simp
  active := by simp [start]
  within := by
    intro slot n during hslot hmax hduring hnamed
    rw [List.infix_nil.mp hduring]
    exact Nat.zero_le _

/-- The argument whose turn it is was given no more words than it has counted. -/
theorem Tallied.receiver (h : Tallied g rs s) (hr : s.receiver = some p) (hduring : during <:+ rs)
    (hnamed : Role.flag (some p.slot) ∉ during) : valuesOf p.slot during ≤ p.count := by
  rcases receiver_cases hr with hf | ⟨-, hp⟩ | ⟨-, -, slot, rest, hpending, rfl⟩
  · exact h.active (Or.inl hf) hduring hnamed
  · exact h.active (Or.inr hp) hduring hnamed
  · have hnone := h.pending slot (hpending ▸ List.mem_cons_self)
    have hle : valuesOf slot during ≤ valuesOf slot rs := hduring.sublist.countP_le
    rw [hnone] at hle
    exact Nat.le_trans hle (Nat.zero_le _)

theorem Tallied.step_value (h : Tallied g rs s) (hstep : Step g s word (.value slot) s') :
    Tallied g (rs ++ [.value slot]) s' := by
  have hs' := h.coherent.step hstep
  obtain ⟨p, hr, rfl, hreceives⟩ := hstep.receives h.coherent
  have hmem := h.coherent.receiver_mem hr
  have hother : ∀ {m during}, m ∈ g.slots → m ≠ p.slot →
      valuesOf m (during ++ [.value p.slot]) = valuesOf m during := fun hm hne =>
    valuesOf_append_other (isValueOf_of_ne hmem hm (Ne.symm hne))
  refine ⟨hs', ?_, ?_, ?_⟩
  · intro m hm
    have hne : m ≠ p.slot := fun hmp => hstep.not_mem_pending h.coherent (hmp ▸ hm)
    rw [hother (Grammar.mem_positionals.mp (hs'.pending.subset hm)).1 hne]
    exact h.pending m (hstep.pending_subset hm)
  · intro q during hq hduring hnamed
    rcases List.suffix_concat_iff.mp hduring with rfl | ⟨before, rfl, hbefore⟩
    · simp
    · have hnamed : Role.flag (some q.slot) ∉ before := fun hin => hnamed (by simp [hin])
      rcases Step.active_of_value h.coherent hr hreceives hq with rfl | ⟨hne, hp⟩
      · have hcount := h.receiver hr hbefore hnamed
        simpa using hcount
      · have hq := (Grammar.mem_positionals.mp (h.coherent.positional hp).mem).1
        rw [hother hq hne]
        exact h.active (Or.inr hp) hbefore hnamed
  · intro m n during hm hmax hduring hnamed
    rcases infix_concat_cases hduring with hduring | ⟨before, rfl, hbefore⟩
    · exact h.within hm hmax hduring hnamed
    · have hnamed : Role.flag (some m) ∉ before := fun hin => hnamed (by simp [hin])
      by_cases hmp : m = p.slot
      · -- The word went to an argument that had room for it.
        subst hmp
        have hcount := h.receiver hr hbefore hnamed
        have hroom := h.coherent.receiver_lt hr hmax
        rw [valuesOf_append_self]
        omega
      · rw [hother hm hmp]
        exact h.within hm hmax hbefore.isInfix hnamed

theorem Tallied.step_other (h : Tallied g rs s) (hstep : Step g s word r s')
    (hr : ∀ slot, r ≠ .value slot) : Tallied g (rs ++ [r]) s' := by
  obtain ⟨hpositional, hflag⟩ := hstep.active_of_ne_value hr
  have hother : ∀ {m during}, valuesOf m (during ++ [r]) = valuesOf m during := by
    intro m during
    apply valuesOf_append_other
    cases r with
    | value slot => exact (hr slot rfl).elim
    | flag slot? => rfl
    | endOfOptions => rfl
    | passedOver => rfl
  refine ⟨h.coherent.step hstep, ?_, ?_, ?_⟩
  · intro m hm
    rw [hother]
    exact h.pending m (hstep.pending_subset hm)
  · intro q during hq hduring hnamed
    rcases List.suffix_concat_iff.mp hduring with rfl | ⟨before, rfl, hbefore⟩
    · simp
    · have hbefore' : Role.flag (some q.slot) ∉ before := fun hin => hnamed (by simp [hin])
      rcases hq with hq | hq
      · -- An active flag was named by this very word.
        have hr := (hflag q hq).1
        subst hr
        exact (hnamed (by simp)).elim
      · rw [hother]
        exact h.active (Or.inr (hpositional ▸ hq)) hbefore hbefore'
  · intro m n during hm hmax hduring hnamed
    rcases infix_concat_cases hduring with hduring | ⟨before, rfl, hbefore⟩
    · exact h.within hm hmax hduring hnamed
    · have hnamed : Role.flag (some m) ∉ before := fun hin => hnamed (by simp [hin])
      rw [hother]
      exact h.within hm hmax hbefore.isInfix hnamed

/-- **Every step keeps the tally.** -/
theorem Tallied.step (h : Tallied g rs s) (hstep : Step g s word r s') :
    Tallied g (rs ++ [r]) s' := by
  by_cases hr : ∃ slot, r = .value slot
  · obtain ⟨slot, rfl⟩ := hr
    exact h.step_value hstep
  · exact h.step_other hstep fun slot hslot => hr ⟨slot, hslot⟩

/-- A positional is never named. -/
theorem not_mem_roles_of_positional (h : slot ∈ g.positionals) :
    Role.flag (some slot) ∉ roles g s words := by
  induction words generalizing s with
  | nil => simp [roles]
  | cons word words ih =>
      rw [roles]
      split
      · next s₁ hfeed =>
          obtain ⟨r, hstep⟩ := feed_next_iff.mp hfeed
          rw [hstep.role_eq, List.mem_cons, not_or]
          refine ⟨?_, ih⟩
          rintro rfl
          cases hstep with
          | flag ho hoff hw hlook hdone hmatch hclaim =>
              have hisFlag := (Grammar.matchFlag?_mem hmatch).2
              rw [(Grammar.mem_positionals.mp h).2] at hisFlag
              contradiction
      · simp

/-- **Arguments take no more values than they may.** Whatever the words, between two words that name
a flag no more of them become values of it than its greatest number, and so it is before the first
and after the last; of all words no more become values of a positional than its greatest number,
unless this is zero: then one word may. -/
theorem values_within_arity (g : Grammar) (words : List String) :
    (∀ f ∈ g.slots, f.arg.isFlag = true → ∀ n, f.arg.arity.max = some n →
      ∀ during, during <:+: roles g (start g) words → Role.flag (some f) ∉ during →
        valuesOf f during ≤ n) ∧
    ∀ slot ∈ g.positionals, ∀ n, slot.arg.arity.max = some n →
      valuesOf slot (roles g (start g) words) ≤ n ∨
        (n = 0 ∧ valuesOf slot (roles g (start g) words) = 1) := by
  obtain ⟨s, hs, -⟩ := roles_invariant Tallied.step (start_tallied g) words
  rw [List.nil_append] at hs
  constructor
  · intro f hf hisFlag n hmax during hduring hnamed
    have hwithin := hs.within hf hmax hduring hnamed
    rwa [mostTaken, if_pos hisFlag] at hwithin
  · intro slot hslot n hmax
    obtain ⟨hmem, hflag⟩ := Grammar.mem_positionals.mp hslot
    have hwithin := hs.within hmem hmax List.infix_rfl (not_mem_roles_of_positional hslot)
    rw [mostTaken, hflag, if_neg Bool.false_ne_true] at hwithin
    omega

/-- A command with a positional that takes no values. -/
def valueless : GrammarSpec :=
  { prog := "cmd"
    items := [.arg { name := some "x", nargs := some (.exactly 0) }, .arg { aliases := ["--f"] }] }

/-- **A positional that takes no values takes one.** -/
theorem valueless_positional_takes_word :
    ∃ g slot s, valueless.build = .ok g ∧ slot ∈ g.positionals ∧ slot.arg.isDispatch = false ∧
      slot.arg.arity.max = some 0 ∧ feedAll g (start g) ["a"] = .ok (.next s) ∧
      valuesOf slot (roles g (start g) ["a"]) = 1 ∧ s.values.get? slot.arg.dest = some ["a"] :=
  ⟨_, _, _, rfl, List.mem_cons_self, rfl, rfl, rfl, rfl, rfl⟩

end Replay

end TabCompletion
