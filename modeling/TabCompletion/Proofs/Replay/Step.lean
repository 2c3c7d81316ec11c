import TabCompletion.Completion.Replay

/-!
# What a word does

`Replay.Step` lists, one rule for each, the ways in which a word is read without handing over to a
subcommand: what the word turned out to be (`Role`) and the state it leaves. `feed_next_iff` says
that these are the ways of `Replay.feed`; whatever every step preserves holds after every run
(`feedAll_invariant`).
-/

namespace TabCompletion

/-- What a word turned out to be. -/
inductive Role where
  /-- A value of an argument. -/
  | value (slot : Slot)
  /-- A flag, if the grammar has it. -/
  | flag (slot? : Option Slot)
  /-- The end of options. -/
  | endOfOptions
  /-- A word too many. -/
  | passedOver

namespace Replay

variable {g : Grammar} {s s' : Replay} {word : String} {p : Progress} {slot : Slot}

/-! ## What a word is read as -/

/-- The positional that is taking values, if any, does not take everything that follows. -/
def PositionalOpen (s : Replay) : Prop := ∀ p, s.positional = some p → p.isRemainder = false

/-- No argument that is taking values takes everything that follows. -/
structure IsOpen (s : Replay) : Prop where
  positional : s.PositionalOpen
  flag : ∀ p, s.flag = some p → p.isRemainder = false

/-- The word is neither the end of options nor a flag. -/
def ReadsValue (g : Grammar) (s : Replay) (word : String) : Prop :=
  s.flagsOff = true ∨ (word ≠ TabCompletion.endOfOptions ∧ g.looksLikeFlag word = false)

/-- A positional takes everything that follows, or a flag does, or none does. -/
theorem remainder_cases (s : Replay) :
    (∃ p, s.positional = some p ∧ p.isRemainder = true) ∨
      (s.PositionalOpen ∧ ∃ p, s.flag = some p ∧ p.isRemainder = true) ∨ s.IsOpen := by
  by_cases hp : ∃ p, s.positional = some p ∧ p.isRemainder = true
  · exact Or.inl hp
  · have hopen : s.PositionalOpen := fun p h => by simpa using fun hr => hp ⟨p, h, hr⟩
    by_cases hf : ∃ p, s.flag = some p ∧ p.isRemainder = true
    · exact Or.inr (Or.inl ⟨hopen, hf⟩)
    · exact Or.inr (Or.inr ⟨hopen, fun p h => by simpa using fun hr => hf ⟨p, h, hr⟩⟩)

theorem filter_isRemainder_eq_none {o : Option Progress}
    (h : ∀ p, o = some p → p.isRemainder = false) : o.filter (·.isRemainder) = none := by
  rw [Option.filter_eq_none_iff]
  intro p hp
  rw [h p hp]
  exact Bool.false_ne_true

theorem filter_isRemainder_eq_some {o : Option Progress} (h : o = some p)
    (hr : p.isRemainder = true) : o.filter (·.isRemainder) = some p :=
  Option.filter_eq_some_iff.mpr ⟨h, hr⟩

theorem reading_of_positional (hp : s.positional = some p) (hr : p.isRemainder = true) :
    s.reading g word = .remainderValue p := by
  simp only [reading, filter_isRemainder_eq_some hp hr]

theorem reading_of_flag (ho : s.PositionalOpen) (hf : s.flag = some p) (hr : p.isRemainder = true) :
    s.reading g word =
      if word = TabCompletion.endOfOptions then .remainderFlagEnd else .remainderFlagValue p := by
  simp only [reading, filter_isRemainder_eq_none ho, filter_isRemainder_eq_some hf hr]

theorem reading_of_isOpen (h : s.IsOpen) :
    s.reading g word =
      if word = TabCompletion.endOfOptions && !s.flagsOff then .endOfOptions
      else if g.looksLikeFlag word && !s.flagsOff then .flag
      else s.flag.elim .positional .flagValue := by
  simp only [reading, filter_isRemainder_eq_none h.positional, filter_isRemainder_eq_none h.flag]
  cases s.flag <;> rfl

theorem reading_of_readsValue (h : s.IsOpen) (hv : s.ReadsValue g word) :
    s.reading g word = s.flag.elim .positional .flagValue := by
  rw [reading_of_isOpen h]
  rcases hv with hoff | ⟨hw, hlook⟩
  · simp [hoff]
  · simp [hw, hlook]

theorem reading_of_endOfOptions (h : s.IsOpen) (hoff : s.flagsOff = false)
    (hw : word = TabCompletion.endOfOptions) : s.reading g word = .endOfOptions := by
  simp [reading_of_isOpen h, hw, hoff]

theorem reading_of_looksLikeFlag (h : s.IsOpen) (hoff : s.flagsOff = false)
    (hw : word ≠ TabCompletion.endOfOptions) (hlook : g.looksLikeFlag word = true) :
    s.reading g word = .flag := by
  simp [reading_of_isOpen h, hw, hoff, hlook]

/-! ## Steps -/

/-- Reading `word` in the state `s` leaves a state, the word being of some role. -/
inductive Step (g : Grammar) (s : Replay) (word : String) : Role → Replay → Prop where
  | remainderValue {p : Progress} (hp : s.positional = some p) (hr : p.isRemainder = true) :
      Step g s word (.value p.slot)
        { s with positional := some p.advance, values := s.values.push p.arg.dest word }
  | remainderFlagValue {p : Progress} (ho : s.PositionalOpen) (hf : s.flag = some p)
      (hr : p.isRemainder = true) (hw : word ≠ TabCompletion.endOfOptions) :
      Step g s word (.value p.slot)
        { s with flag := some p.advance, values := s.values.push p.arg.dest word }
  | remainderFlagEnd {p : Progress} (ho : s.PositionalOpen) (hf : s.flag = some p)
      (hr : p.isRemainder = true) (hw : word = TabCompletion.endOfOptions) :
      Step g s word .endOfOptions { s with flag := none }
  | endOfOptions (ho : s.IsOpen) (hoff : s.flagsOff = false)
      (hw : word = TabCompletion.endOfOptions) (hdone : s.checkFlag = .ok ()) :
      Step g s word .endOfOptions { s with flag := none, flagsOff := true }
  | unknownFlag (ho : s.IsOpen) (hoff : s.flagsOff = false)
      (hw : word ≠ TabCompletion.endOfOptions) (hlook : g.looksLikeFlag word = true)
      (hdone : s.checkFlag = .ok ()) (hmatch : g.matchFlag? word = none) :
      Step g s word (.flag none) { s with flag := none }
  | flag {slot : Slot} {s₁ : Replay} (ho : s.IsOpen) (hoff : s.flagsOff = false)
      (hw : word ≠ TabCompletion.endOfOptions) (hlook : g.looksLikeFlag word = true)
      (hdone : s.checkFlag = .ok ()) (hmatch : g.matchFlag? word = some slot)
      (hclaim : ({ s with flag := none }).claimGroup g slot = .ok s₁) :
      Step g s word (.flag (some slot)) (s₁.withFlag slot)
  | flagValue {p : Progress} (ho : s.IsOpen) (hv : s.ReadsValue g word) (hf : s.flag = some p) :
      Step g s word (.value p.slot)
        { s with
          flag := if p.advance.isFull then none else some p.advance
          values := s.values.push p.arg.dest word }
  | passedOver (ho : s.IsOpen) (hv : s.ReadsValue g word) (hf : s.flag = none)
      (hp : s.positional = none) (hpending : s.pending = []) :
      Step g s word .passedOver s
  | activeValue {p : Progress} {s₁ : Replay} (ho : s.IsOpen) (hv : s.ReadsValue g word)
      (hf : s.flag = none) (hp : s.positional = some p)
      (hclaim : s.claimGroup g p.slot = .ok s₁) :
      Step g s word (.value p.slot) (s₁.withPositionalValue p word)
  | nextValue {slot : Slot} {rest : List Slot} {s₁ : Replay} (ho : s.IsOpen)
      (hv : s.ReadsValue g word) (hf : s.flag = none) (hp : s.positional = none)
      (hpending : s.pending = slot :: rest) (hsub : slot.arg.subcommands? = none)
      (hclaim : ({ s with pending := rest }).claimGroup g slot = .ok s₁) :
      Step g s word (.value slot) (s₁.withPositionalValue { slot } word)

theorem feedValue_eq_ok :
    s.feedValue g p word = .ok s' ↔
      ∃ s₁, s.claimGroup g p.slot = .ok s₁ ∧ s' = s₁.withPositionalValue p word := by
  unfold feedValue
  cases s.claimGroup g p.slot with
  | error e => simp
  | ok s₁ => simp [eq_comm]

theorem feedFlag_eq_ok :
    s.feedFlag g word = .ok s' ↔
      (g.matchFlag? word = none ∧ s' = s) ∨
        ∃ slot s₁, g.matchFlag? word = some slot ∧ s.claimGroup g slot = .ok s₁ ∧
          s' = s₁.withFlag slot := by
  unfold feedFlag
  cases g.matchFlag? word with
  | none => simp [eq_comm]
  | some slot =>
      cases hc : s.claimGroup g slot with
      | error e => simp [hc]
      | ok s₁ => simp [hc, eq_comm]

theorem feedPositional_of_active (hp : s.positional = some p) :
    s.feedPositional g word = (s.feedValue g p word).map .next := by
  simp only [feedPositional, hp]

theorem feedPositional_of_pending {rest : List Slot} (hp : s.positional = none)
    (hpending : s.pending = slot :: rest) (hsub : slot.arg.subcommands? = none) :
    s.feedPositional g word = (({ s with pending := rest }).feedValue g { slot } word).map .next := by
  simp only [feedPositional, hp, hpending, hsub]

theorem feedPositional_of_nil (hp : s.positional = none) (hpending : s.pending = []) :
    s.feedPositional g word = .ok (.next s) := by
  simp only [feedPositional, hp, hpending]

theorem map_next_eq_ok {r : Except Interruption Replay} :
    r.map Fed.next = .ok (.next s') ↔ r = .ok s' := by
  cases r <;> simp [Except.map]

theorem feed_of_positional (ho : s.IsOpen) (hv : s.ReadsValue g word) (hf : s.flag = none) :
    s.feed g word = s.feedPositional g word := by
  simp only [feed, reading_of_readsValue ho hv, hf, Option.elim]

/-- What a step does is what reading the word does. -/
theorem Step.feed_eq {r : Role} (h : Step g s word r s') : s.feed g word = .ok (.next s') := by
  cases h with
  | remainderValue hp hr => simp only [feed, reading_of_positional hp hr, Progress.consume]
  | remainderFlagValue ho hf hr hw =>
      simp only [feed, reading_of_flag ho hf hr, if_neg hw, Progress.consume]
  | remainderFlagEnd ho hf hr hw => simp only [feed, reading_of_flag ho hf hr, if_pos hw]
  | endOfOptions ho hoff hw hdone =>
      simp only [feed, reading_of_endOfOptions ho hoff hw, hdone]
  | unknownFlag ho hoff hw hlook hdone hmatch =>
      simp only [feed, reading_of_looksLikeFlag ho hoff hw hlook, hdone]
      rw [map_next_eq_ok, feedFlag_eq_ok]
      exact Or.inl ⟨hmatch, rfl⟩
  | flag ho hoff hw hlook hdone hmatch hclaim =>
      simp only [feed, reading_of_looksLikeFlag ho hoff hw hlook, hdone]
      rw [map_next_eq_ok, feedFlag_eq_ok]
      exact Or.inr ⟨_, _, hmatch, hclaim, rfl⟩
  | flagValue ho hv hf =>
      simp only [feed, reading_of_readsValue ho hv, hf, Option.elim, Progress.consume]
      rfl
  | passedOver ho hv hf hp hpending =>
      rw [feed_of_positional ho hv hf, feedPositional_of_nil hp hpending]
  | activeValue ho hv hf hp hclaim =>
      rw [feed_of_positional ho hv hf, feedPositional_of_active hp, map_next_eq_ok,
        feedValue_eq_ok]
      exact ⟨_, hclaim, rfl⟩
  | nextValue ho hv hf hp hpending hsub hclaim =>
      rw [feed_of_positional ho hv hf, feedPositional_of_pending hp hpending hsub, map_next_eq_ok,
        feedValue_eq_ok]
      exact ⟨_, hclaim, rfl⟩

theorem feedPositional_next (ho : s.IsOpen) (hv : s.ReadsValue g word) (hf : s.flag = none)
    (h : s.feedPositional g word = .ok (.next s')) : ∃ r, Step g s word r s' := by
  cases hp : s.positional with
  | some p =>
      rw [feedPositional_of_active hp, map_next_eq_ok, feedValue_eq_ok] at h
      obtain ⟨s₁, hclaim, rfl⟩ := h
      exact ⟨_, .activeValue ho hv hf hp hclaim⟩
  | none =>
      cases hpending : s.pending with
      | nil =>
          rw [feedPositional_of_nil hp hpending] at h
          cases h
          exact ⟨_, .passedOver ho hv hf hp hpending⟩
      | cons slot rest =>
          cases hsub : slot.arg.subcommands? with
          | none =>
              rw [feedPositional_of_pending hp hpending hsub, map_next_eq_ok, feedValue_eq_ok] at h
              obtain ⟨s₁, hclaim, rfl⟩ := h
              exact ⟨_, .nextValue ho hv hf hp hpending hsub hclaim⟩
          | some subs =>
              -- The dispatch argument hands over or fails.
              simp only [feedPositional, hp, hpending, hsub] at h
              split at h <;> cases h

theorem feedFlag_next (ho : s.IsOpen) (hoff : s.flagsOff = false)
    (hw : word ≠ TabCompletion.endOfOptions) (hlook : g.looksLikeFlag word = true)
    (hdone : s.checkFlag = .ok ()) (h : ({ s with flag := none }).feedFlag g word = .ok s') :
    ∃ r, Step g s word r s' := by
  rcases feedFlag_eq_ok.mp h with ⟨hmatch, rfl⟩ | ⟨slot, s₁, hmatch, hclaim, rfl⟩
  · exact ⟨_, .unknownFlag ho hoff hw hlook hdone hmatch⟩
  · exact ⟨_, .flag ho hoff hw hlook hdone hmatch hclaim⟩

theorem feed_next_of_isOpen (ho : s.IsOpen) (h : s.feed g word = .ok (.next s')) :
    ∃ r, Step g s word r s' := by
  by_cases hv : s.ReadsValue g word
  · cases hf : s.flag with
    | none =>
        rw [feed_of_positional ho hv hf] at h
        exact feedPositional_next ho hv hf h
    | some p =>
        simp only [feed, reading_of_readsValue ho hv, hf, Option.elim, Progress.consume] at h
        cases h
        exact ⟨_, .flagValue ho hv hf⟩
  · simp only [ReadsValue, not_or, not_and, Bool.not_eq_true, Bool.not_eq_false] at hv
    obtain ⟨hoff, hlook⟩ := hv
    by_cases hw : word = TabCompletion.endOfOptions
    · simp only [feed, reading_of_endOfOptions ho hoff hw] at h
      cases hdone : s.checkFlag with
      | error e => simp [hdone] at h
      | ok u =>
          rw [hdone] at h
          cases h
          exact ⟨_, .endOfOptions ho hoff hw hdone⟩
    · simp only [feed, reading_of_looksLikeFlag ho hoff hw (hlook hw)] at h
      cases hdone : s.checkFlag with
      | error e => simp [hdone] at h
      | ok u =>
          rw [hdone] at h
          exact feedFlag_next ho hoff hw (hlook hw) hdone (map_next_eq_ok.mp h)

/-- **The steps are the ways of reading a word that do not hand over to a subcommand.** -/
theorem feed_next_iff : s.feed g word = .ok (.next s') ↔ ∃ r, Step g s word r s' := by
  constructor
  · intro h
    rcases remainder_cases s with ⟨p, hp, hr⟩ | ⟨ho, p, hf, hr⟩ | ho
    · simp only [feed, reading_of_positional hp hr, Progress.consume] at h
      cases h
      exact ⟨_, .remainderValue hp hr⟩
    · by_cases hw : word = TabCompletion.endOfOptions
      · simp only [feed, reading_of_flag ho hf hr, if_pos hw] at h
        cases h
        exact ⟨_, .remainderFlagEnd ho hf hr hw⟩
      · simp only [feed, reading_of_flag ho hf hr, if_neg hw, Progress.consume] at h
        cases h
        exact ⟨_, .remainderFlagValue ho hf hr hw⟩
    · exact feed_next_of_isOpen ho h
  · rintro ⟨r, h⟩
    exact h.feed_eq

/-! ## Handing over -/

theorem map_next_ne_delegate {r : Except Interruption Replay} {child : Grammar} :
    r.map Fed.next ≠ .ok (.delegate child) := by
  cases r <;> simp [Except.map]

/-- **A word hands over just if it is read as a positional, the next one is a dispatch argument, and
the word names one of its subcommands.** -/
theorem feed_delegate_iff {child : Grammar} :
    s.feed g word = .ok (.delegate child) ↔
      s.reading g word = .positional ∧ s.positional = none ∧
        ∃ slot rest subs, s.pending = slot :: rest ∧ slot.arg.subcommands? = some subs ∧
          subs.lookup word = some child := by
  constructor
  · intro h
    unfold feed at h
    cases hread : s.reading g word with
    | remainderValue | remainderFlagValue | remainderFlagEnd | flagValue => simp [hread] at h
    | endOfOptions => cases hdone : s.checkFlag <;> simp [hread, hdone] at h
    | flag =>
        cases hdone : s.checkFlag with
        | error e => simp [hread, hdone] at h
        | ok u =>
            simp only [hread, hdone] at h
            exact absurd h map_next_ne_delegate
    | positional =>
        simp only [hread] at h
        refine ⟨rfl, ?_⟩
        cases hp : s.positional with
        | some p =>
            rw [feedPositional_of_active hp] at h
            exact absurd h map_next_ne_delegate
        | none =>
            cases hpending : s.pending with
            | nil =>
                rw [feedPositional_of_nil hp hpending] at h
                cases h
            | cons slot rest =>
                cases hsub : slot.arg.subcommands? with
                | none =>
                    rw [feedPositional_of_pending hp hpending hsub] at h
                    exact absurd h map_next_ne_delegate
                | some subs =>
                    simp only [feedPositional, hp, hpending, hsub] at h
                    split at h
                    · next hlookup =>
                        cases h
                        exact ⟨rfl, slot, rest, subs, rfl, hsub, hlookup⟩
                    · cases h
  · rintro ⟨hread, hp, slot, rest, subs, hpending, hsub, hlookup⟩
    simp only [feed, hread, feedPositional, hp, hpending, hsub, hlookup]

/-! ## Runs -/

theorem feedAll_cons_next {words : List String} :
    feedAll g s (word :: words) = .ok (.next s') ↔
      ∃ s₁ r, Step g s word r s₁ ∧ feedAll g s₁ words = .ok (.next s') := by
  rw [feedAll]
  constructor
  · intro h
    split at h
    · next s₁ hfeed =>
        obtain ⟨r, hstep⟩ := feed_next_iff.mp hfeed
        exact ⟨s₁, r, hstep, h⟩
    · next hother => exact absurd h (hother s')
  · rintro ⟨s₁, r, hstep, h⟩
    rw [hstep.feed_eq]
    exact h

/-- The words after those that were read are read in the state that these left. -/
theorem feedAll_append {words more : List String} (h : feedAll g s words = .ok (.next s')) :
    feedAll g s (words ++ more) = feedAll g s' more := by
  induction words generalizing s with
  | nil =>
      cases h
      rfl
  | cons word words ih =>
      obtain ⟨s₁, r, hfirst, hrest⟩ := feedAll_cons_next.mp h
      rw [List.cons_append, feedAll, hfirst.feed_eq]
      exact ih hrest

theorem feedAll_singleton : feedAll g s [word] = s.feed g word := by
  rw [feedAll]
  split
  · next s₁ hfeed =>
      rw [feedAll, hfeed]
  · rfl

/-- Where reading words fails it fails at once, whatever follows. -/
theorem feedAll_append_of_error {words more : List String} {e : Interruption}
    (h : feedAll g s words = .error e) : feedAll g s (words ++ more) = .error e := by
  induction words generalizing s with
  | nil => contradiction
  | cons word words ih =>
      rw [List.cons_append, feedAll]
      rw [feedAll] at h
      cases hfeed : s.feed g word with
      | error e' =>
          rw [hfeed] at h
          exact h
      | ok fed =>
          cases fed with
          | next s₁ =>
              rw [hfeed] at h
              exact ih h
          | delegate child =>
              rw [hfeed] at h
              contradiction

/-- **What every step preserves holds after every run.** -/
theorem feedAll_invariant {I : Replay → Prop} {words : List String}
    (hstep : ∀ {s word r s'}, I s → Step g s word r s' → I s') (hs : I s)
    (h : feedAll g s words = .ok (.next s')) : I s' := by
  induction words generalizing s with
  | nil =>
      cases h
      exact hs
  | cons word words ih =>
      obtain ⟨s₁, r, hfirst, hrest⟩ := feedAll_cons_next.mp h
      exact ih (hstep hs hfirst) hrest

end Replay

end TabCompletion
