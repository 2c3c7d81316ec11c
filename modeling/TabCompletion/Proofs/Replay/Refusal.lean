import TabCompletion.Proofs.Replay.Offered

/-!
# Why a word is refused

Reading a word fails in three ways only (`feed_error_cases`): an active flag is in want of values
where flags are read and the word ends them (`Grammar.IsBoundary`), a rival has the exclusive group,
or the word names no subcommand. The first way is characterised for reading a word
(`Coherent.feed_unfinished`) and for completing one (`complete_unfinished`): the complaint is always
about the active flag.
-/

namespace TabCompletion

variable {g : Grammar} {s : Replay} {word name : String} {arity : Arity} {entered : Nat}
  {e : Interruption} {p : Progress} {host : Host} {parents : ArgTokens} {request : CompletionRequest}

/-- The word ends the values of a flag where flags are read: it is the end of options, or it looks
like a flag. -/
def Grammar.IsBoundary (g : Grammar) (word : String) : Prop :=
  word = endOfOptions ∨ g.looksLikeFlag word = true

namespace Replay

/-! ## Boundaries -/

theorem readsValue_of_not_isBoundary (h : ¬ g.IsBoundary word) : ReadsValue g s word := by
  rw [Grammar.IsBoundary, not_or, Bool.not_eq_true] at h
  exact Or.inr h

theorem notEnd_of_not_isBoundary (h : ¬ g.IsBoundary word) : word ≠ TabCompletion.endOfOptions :=
  fun hend => h (Or.inl hend)

theorem target_ne_flags_of_not_isBoundary (h : ¬ g.IsBoundary word) : s.target g word ≠ .flags :=
  fun ht => h (Or.inr (target_eq_flags.mp ht).1)

/-- What is read as the end of options or as a flag is a boundary, and flags are read. -/
theorem isBoundary_of_reading
    (h : s.reading g word = .endOfOptions ∨ s.reading g word = .flag) :
    s.flagsOff = false ∧ g.IsBoundary word := by
  rcases remainder_cases s with ⟨p, hp, hr⟩ | ⟨ho, p, hf, hr⟩ | ho
  · simp [reading_of_positional hp hr] at h
  · rw [reading_of_flag ho hf hr] at h
    split at h
    · simp at h
    · simp at h
  · by_cases hv : ReadsValue g s word
    · rw [reading_of_readsValue ho hv] at h
      cases hf : s.flag with
      | none => simp [hf] at h
      | some p => simp [hf] at h
    · simp only [ReadsValue, not_or, not_and, Bool.not_eq_true, Bool.not_eq_false] at hv
      obtain ⟨hon, hlook⟩ := hv
      refine ⟨hon, ?_⟩
      by_cases hw : word = TabCompletion.endOfOptions
      · exact Or.inl hw
      · exact Or.inr (hlook hw)

theorem Coherent.reading_of_isBoundary (h : Coherent g s) (hon : s.flagsOff = false)
    (hb : g.IsBoundary word) :
    s.reading g word = .endOfOptions ∨ s.reading g word = .flag := by
  by_cases hw : word = TabCompletion.endOfOptions
  · exact Or.inl (reading_of_endOfOptions (h.isOpen hon) hon hw)
  · have hlook : g.looksLikeFlag word = true := hb.resolve_left hw
    exact Or.inr (reading_of_looksLikeFlag (h.isOpen hon) hon hw hlook)

/-! ## Reading -/

/-- The check fails just if the active flag has too few values. -/
theorem checkFlag_eq_error :
    s.checkFlag = .error e ↔ ∃ p, s.flag = some p ∧ p.isUnfinished = true ∧ e = p.unfinished := by
  unfold checkFlag
  cases s.flag with
  | none => simp
  | some p => cases hp : p.isUnfinished <;> simp [hp, @eq_comm _ e]

theorem feedValue_error (h : s.feedValue g p word = .error e) :
    ∃ name other, e = .mutexConflict name other := by
  unfold feedValue at h
  split at h
  · next hclaim =>
      cases h
      exact claimGroup_error hclaim
  · contradiction

theorem map_next_eq_error {r : Except Interruption Replay} :
    r.map Fed.next = .error e ↔ r = .error e := by
  cases r <;> simp [Except.map]

theorem feedPositional_error (h : s.feedPositional g word = .error e) :
    (∃ name other, e = .mutexConflict name other) ∨ e = .unknownSubcommand word := by
  unfold feedPositional at h
  split at h
  · exact Or.inl (feedValue_error (map_next_eq_error.mp h))
  · split at h
    · contradiction
    · split at h
      · split at h
        · contradiction
        · cases h
          exact Or.inr rfl
      · exact Or.inl (feedValue_error (map_next_eq_error.mp h))

/-- **Reading a word fails in three ways only.** -/
theorem feed_error_cases (h : s.feed g word = .error e) :
    (s.flagsOff = false ∧ g.IsBoundary word ∧ s.checkFlag = .error e) ∨
      (∃ name other, e = .mutexConflict name other) ∨ e = .unknownSubcommand word := by
  unfold feed at h
  -- Only the end of options and a flag look at the active flag; a value that goes to it is never
  -- refused.
  cases hread : s.reading g word with
  | remainderValue | remainderFlagValue | remainderFlagEnd | flagValue => simp [hread] at h
  | endOfOptions =>
      obtain ⟨hon, hb⟩ := isBoundary_of_reading (Or.inl hread)
      cases hdone : s.checkFlag with
      | ok u => simp [hread, hdone] at h
      | error e' =>
          simp only [hread, hdone] at h
          cases h
          exact Or.inl ⟨hon, hb, rfl⟩
  | flag =>
      obtain ⟨hon, hb⟩ := isBoundary_of_reading (Or.inr hread)
      cases hdone : s.checkFlag with
      | ok u =>
          simp only [hread, hdone] at h
          exact Or.inr (Or.inl (feedFlag_error (map_next_eq_error.mp h)))
      | error e' =>
          simp only [hread, hdone] at h
          cases h
          exact Or.inl ⟨hon, hb, rfl⟩
  | positional =>
      simp only [hread] at h
      exact Or.inr (feedPositional_error h)

/-- **A word is refused for want of values just if flags are read, the word is a boundary and the
active flag has too few values**; the complaint is about this flag. -/
theorem Coherent.feed_unfinished (h : Coherent g s) :
    s.feed g word = .error (.unfinishedArgument name arity entered) ↔
      s.flagsOff = false ∧ g.IsBoundary word ∧
        ∃ p, s.flag = some p ∧ p.isUnfinished = true ∧
          .unfinishedArgument name arity entered = p.unfinished := by
  rw [← checkFlag_eq_error]
  constructor
  · intro hfeed
    rcases feed_error_cases hfeed with hwant | ⟨n, o, hconflict⟩ | hunknown
    · exact hwant
    · contradiction
    · contradiction
  · rintro ⟨hon, hb, hdone⟩
    rcases h.reading_of_isBoundary hon hb with hread | hread
    · simp only [feed, hread, hdone]
    · exact (feed_unfinished_iff hread).mpr hdone

/-! ## Completing -/

theorem completeArg_error {scope : Scope} {d : ArgDef Grammar}
    (h : scope.completeArg d request = .error e) :
    ∃ failure, e = .choiceSource d.displayName failure := by
  unfold Scope.completeArg at h
  split at h
  · next failure hfailure =>
      cases h
      exact ⟨failure, rfl⟩
  · contradiction

theorem completeValue_error {isFlag : Bool}
    (h : s.completeValue g host parents p isFlag request = .error e) :
    ∃ failure, e = .choiceSource p.arg.displayName failure := by
  unfold completeValue at h
  simp only at h
  split at h
  · next hfailure =>
      cases h
      exact completeArg_error hfailure
  · split at h
    · contradiction
    · split at h <;> contradiction

/-- **Completing a word fails for want of values just if it is completed as a flag and the active
flag has too few**; the complaint is about this flag. -/
theorem complete_unfinished :
    s.complete g host parents request = .error (.unfinishedArgument name arity entered) ↔
      s.flagsOff = false ∧ g.looksLikeFlag request.text = true ∧
        ∃ p, s.flag = some p ∧ p.isUnfinished = true ∧
          .unfinishedArgument name arity entered = p.unfinished := by
  rw [← checkFlag_eq_error]
  constructor
  · intro hcomplete
    by_cases ht : s.target g request.text = .flags
    · obtain ⟨hlook, hon⟩ := target_eq_flags.mp ht
      exact ⟨hon, hlook, (complete_unfinished_iff ht).mp hcomplete⟩
    · exfalso
      cases hr : s.receiver with
      | none =>
          simp only [complete, (target_eq_nothing_iff ht).mpr hr] at hcomplete
          split at hcomplete <;> contradiction
      | some p =>
          rw [complete_eq_completeValue ht hr] at hcomplete
          obtain ⟨failure, hfailure⟩ := completeValue_error hcomplete
          contradiction
  · rintro ⟨hon, hlook, hdone⟩
    exact (complete_unfinished_iff (target_eq_flags.mpr ⟨hlook, hon⟩)).mpr hdone

/-! ## Reading and completing alike -/

/-- While an active flag has too few values, every boundary is refused on its account, and so is
every word that is completed as a flag. -/
theorem Coherent.refuses_of_isUnfinished (h : Coherent g s) (hon : s.flagsOff = false)
    (hf : s.flag = some p) (hp : p.isUnfinished = true) :
    (∀ word, g.IsBoundary word → s.feed g word = .error p.unfinished) ∧
      ∀ host parents (request : CompletionRequest), g.looksLikeFlag request.text = true →
        s.complete g host parents request = .error p.unfinished := by
  have hwant : ∃ q, s.flag = some q ∧ q.isUnfinished = true ∧ p.unfinished = q.unfinished :=
    ⟨p, hf, hp, rfl⟩
  constructor
  · intro word hb
    exact h.feed_unfinished.mpr ⟨hon, hb, hwant⟩
  · intro host parents request hlook
    exact complete_unfinished.mpr ⟨hon, hlook, hwant⟩

/-- Unless an active flag has too few values, no word is refused for want of values. -/
theorem Coherent.not_refuses (h : Coherent g s) (hf : ∀ p, s.flag = some p → p.isUnfinished = false) :
    (∀ word name arity entered, s.feed g word ≠ .error (.unfinishedArgument name arity entered)) ∧
      ∀ host parents request name arity entered,
        s.complete g host parents request ≠ .error (.unfinishedArgument name arity entered) := by
  constructor
  · intro word name arity entered hfeed
    obtain ⟨-, -, p, hp, hwant, -⟩ := h.feed_unfinished.mp hfeed
    rw [hf p hp] at hwant
    contradiction
  · intro host parents request name arity entered hcomplete
    obtain ⟨-, -, p, hp, hwant, -⟩ := complete_unfinished.mp hcomplete
    rw [hf p hp] at hwant
    contradiction

end Replay

end TabCompletion
