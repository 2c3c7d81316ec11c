import TabCompletion.Completion.Resolve
import TabCompletion.Proofs.ArgTokens
import TabCompletion.Proofs.Replay.Coherent

/-!
# Completing a word and reading it

The word under the cursor is completed as what it would be read as. Completing tests whether flags
are off before it looks at the active arguments (`target`), reading looks first at those that take
everything that follows (`reading`); in a coherent state both tests come to the same.
-/

namespace TabCompletion

/-- The argument that is asked for candidates. -/
def Target.argument? : Target → Option Progress
  | .flagValue p => some p
  | .positional p => some p
  | _ => none

namespace Replay

variable {g : Grammar} {s s' s₁ : Replay} {v : String} {p : Progress} {slot : Slot}

/-- The argument that takes a word which is no flag: the active flag, else the active positional,
else the first pending one. -/
def receiver (s : Replay) : Option Progress := s.flag.or s.nextPositional

/-- The word became a value of `p`, which stays active until it is full. -/
structure Receives (s : Replay) (p : Progress) (v : String) (s' : Replay) : Prop where
  values : s'.values = s.values.push p.arg.dest v
  flag : s'.flag =
    if s.flag.isSome then if p.advance.isFull then none else some p.advance else none
  positional : s'.positional =
    if s.flag.isSome then s.positional else if p.advance.isFull then none else some p.advance

/-- Completing a word asks `p` for candidates before anything else: its failure is the failure, and
its candidates, if it has any, are the answer. -/
structure AsksFirst (g : Grammar) (s : Replay) (host : Host) (parents : ArgTokens) (p : Progress)
    (request : CompletionRequest) : Prop where
  failure : ∀ e, ({ host, parents, values := s.values } : Scope).completeArg p.arg request =
    .error e → s.complete g host parents request = .error e
  answer : ∀ c, ({ host, parents, values := s.values } : Scope).completeArg p.arg request = .ok c →
    c.items ≠ [] → s.complete g host parents request = .ok { completions := c }

theorem receiver_of_flag (hf : s.flag = some p) : s.receiver = some p := by
  rw [receiver, hf, Option.some_or]

theorem receiver_of_positional (hf : s.flag = none) (hp : s.positional = some p) :
    s.receiver = some p := by
  rw [receiver, hf, Option.none_or, nextPositional, hp]

theorem receiver_of_pending {rest : List Slot} (hf : s.flag = none) (hp : s.positional = none)
    (hpending : s.pending = slot :: rest) : s.receiver = some { slot } := by
  rw [receiver, hf, Option.none_or, nextPositional, hp, hpending]
  rfl

theorem receiver_eq_none :
    s.receiver = none ↔ s.flag = none ∧ s.positional = none ∧ s.pending = [] := by
  rw [receiver, Option.or_eq_none_iff, nextPositional]
  cases s.positional with
  | some p => simp
  | none => simp

/-- The three places that the argument may come from. -/
theorem receiver_cases (h : s.receiver = some p) :
    s.flag = some p ∨ (s.flag = none ∧ s.positional = some p) ∨
      s.flag = none ∧ s.positional = none ∧
        ∃ slot rest, s.pending = slot :: rest ∧ p = { slot } := by
  cases hf : s.flag with
  | some q =>
      rw [receiver_of_flag hf] at h
      exact Or.inl h
  | none =>
      cases hp : s.positional with
      | some q =>
          rw [receiver_of_positional hf hp] at h
          exact Or.inr (Or.inl ⟨rfl, h⟩)
      | none =>
          cases hpending : s.pending with
          | nil =>
              rw [receiver_eq_none.mpr ⟨hf, hp, hpending⟩] at h
              contradiction
          | cons slot rest =>
              rw [receiver_of_pending hf hp hpending] at h
              cases h
              exact Or.inr (Or.inr ⟨rfl, rfl, slot, rest, rfl, rfl⟩)

/-- The argument whose turn it is is one of the grammar. -/
theorem Coherent.receiver_mem (h : Coherent g s) (hr : s.receiver = some p) : p.slot ∈ g.slots := by
  rcases receiver_cases hr with hf | ⟨-, hp⟩ | ⟨-, -, slot, rest, hpending, rfl⟩
  · exact (h.flag hf).mem
  · exact (Grammar.mem_positionals.mp (h.positional hp).mem).1
  · exact (Grammar.mem_positionals.mp (h.next_mem hpending)).1

/-! ## Flags -/

theorem target_eq_flags :
    s.target g v = .flags ↔ g.looksLikeFlag v = true ∧ s.flagsOff = false := by
  unfold target
  split
  · next h => simpa using h
  · next h =>
      constructor
      · intro ht
        split at ht
        · contradiction
        · split at ht <;> contradiction
      · intro hv
        exact absurd (by simpa using hv) h

/-- **In a coherent state a word is read as a flag just if it looks like one and flags are read.** -/
theorem Coherent.reading_eq_flag (h : Coherent g s) (hv : v ≠ TabCompletion.endOfOptions) :
    s.reading g v = .flag ↔ g.looksLikeFlag v = true ∧ s.flagsOff = false := by
  rcases remainder_cases s with ⟨p, hp, hr⟩ | ⟨ho, p, hf, hr⟩ | ho
  · -- Reading does not ask whether flags are off here, but they are.
    have hoff : s.flagsOff = true := ((h.positional hp).remainder hr).1
    simp [reading_of_positional hp hr, hoff]
  · have hoff : s.flagsOff = true := (h.flag hf).flagsOff.trans hr
    simp [reading_of_flag ho hf hr, hv, hoff]
  · rw [reading_of_isOpen ho]
    simp only [decide_eq_false hv, Bool.false_and, Bool.false_eq_true, if_false, Bool.and_eq_true,
      Bool.not_eq_true']
    split
    · next hl => simpa using hl
    · next hl =>
        cases s.flag <;> simpa using hl

/-- Taking a group fails only on another member's account. -/
theorem claimGroup_error {e : Interruption} (h : s.claimGroup g slot = .error e) :
    ∃ name other, e = .mutexConflict name other := by
  unfold claimGroup at h
  split at h
  · contradiction
  · split at h
    · split at h
      · contradiction
      · cases h
        exact ⟨_, _, rfl⟩
    · contradiction

theorem feedFlag_error {e : Interruption} (h : s.feedFlag g v = .error e) :
    ∃ name other, e = .mutexConflict name other := by
  unfold feedFlag at h
  split at h
  · contradiction
  · split at h
    · next hclaim =>
        cases h
        exact claimGroup_error hclaim
    · contradiction

/-- An active flag that has too few values stops the reading of a flag, and nothing else about its
values does. -/
theorem feed_unfinished_iff (hread : s.reading g v = .flag) {name : String} {arity : Arity}
    {entered : Nat} :
    s.feed g v = .error (.unfinishedArgument name arity entered) ↔
      s.checkFlag = .error (.unfinishedArgument name arity entered) := by
  simp only [feed, hread]
  cases hdone : s.checkFlag with
  | error e => simp
  | ok u =>
      cases hfed : ({ s with flag := none }).feedFlag g v with
      | error e =>
          obtain ⟨n, o, rfl⟩ := feedFlag_error hfed
          simp [Except.map]
      | ok s₁ => simp [Except.map]

theorem complete_unfinished_iff {host : Host} {parents : ArgTokens} {request : CompletionRequest}
    (ht : s.target g request.text = .flags) {e : Interruption} :
    s.complete g host parents request = .error e ↔ s.checkFlag = .error e := by
  simp only [complete, ht]
  cases s.checkFlag <;> simp

/-! ## Values -/

theorem target_of_flag (ht : s.target g v ≠ .flags) (hf : s.flag = some p) :
    s.target g v = .flagValue p := by
  unfold target at ht ⊢
  split at ht
  · contradiction
  · next hflags => simp only [if_neg hflags, hf]

theorem target_of_nextPositional (ht : s.target g v ≠ .flags) (hf : s.flag = none) :
    s.target g v = s.nextPositional.elim .nothing .positional := by
  unfold target at ht ⊢
  split at ht
  · contradiction
  · next hflags =>
      simp only [if_neg hflags, hf]
      cases s.nextPositional <;> rfl

theorem argument?_target (ht : s.target g v ≠ .flags) : (s.target g v).argument? = s.receiver := by
  cases hf : s.flag with
  | some p =>
      rw [target_of_flag ht hf, receiver_of_flag hf]
      rfl
  | none =>
      rw [target_of_nextPositional ht hf, receiver, hf, Option.none_or]
      cases s.nextPositional <;> rfl

/-- What is asked is the argument whose turn it is, and the word is not completed as a flag. -/
theorem receiver_of_asked (h : (s.target g v).argument? = some p) :
    s.target g v ≠ .flags ∧ s.receiver = some p := by
  have ht : s.target g v ≠ .flags := by
    intro ht
    rw [ht] at h
    contradiction
  exact ⟨ht, (argument?_target ht).symm.trans h⟩

/-- A word that is not completed as a flag is not read as one. -/
theorem readsValue_of_target (hv : v ≠ TabCompletion.endOfOptions) (ht : s.target g v ≠ .flags) :
    ReadsValue g s v := by
  rw [Ne, target_eq_flags, not_and, Bool.not_eq_false] at ht
  by_cases hlook : g.looksLikeFlag v = true
  · exact Or.inl (ht hlook)
  · exact Or.inr ⟨hv, by simpa using hlook⟩

/-- The next positional may take its group. -/
theorem Coherent.claimGroup_of_next {rest : List Slot} (h : Coherent g s)
    (hpending : s.pending = slot :: rest) :
    ∃ s₁, ({ s with pending := rest } : Replay).claimGroup g slot = .ok s₁ := by
  apply exists_claimGroup
  intro group owner hgroup howner
  have hslot := (Grammar.mem_positionals.mp (h.next_mem hpending)).1
  have hmem := Grammar.mem_groupMembers.mpr ⟨hslot, hgroup⟩
  have hin : slot ∈ s.pending := hpending ▸ List.mem_cons_self
  -- Another owner would have removed the positional from the pending ones.
  by_contra hne
  exact (h.taken howner).pending slot hmem (Ne.symm hne) hin

/-- **A word that is completed as a value is read as one, of the same argument.** -/
theorem Coherent.exists_valueStep (h : Coherent g s) (hv : v ≠ TabCompletion.endOfOptions)
    (ht : s.target g v ≠ .flags) (hr : s.receiver = some p) (hsub : p.arg.subcommands? = none) :
    ∃ s', Step g s v (.value p.slot) s' := by
  have hval := readsValue_of_target hv ht
  rcases remainder_cases s with ⟨q, hq, hqr⟩ | ⟨ho, q, hf, hqr⟩ | ho
  · -- Reading asks the positional first and the invariant says that no flag is active.
    have hf : s.flag = none := ((h.positional hq).remainder hqr).2
    rw [receiver_of_positional hf hq] at hr
    cases hr
    exact ⟨_, .remainderValue hq hqr⟩
  · rw [receiver_of_flag hf] at hr
    cases hr
    exact ⟨_, .remainderFlagValue ho hf hqr hv⟩
  · rcases receiver_cases hr with hf | ⟨hf, hp⟩ | ⟨hf, hp, slot, rest, hpending, rfl⟩
    · exact ⟨_, .flagValue ho hval hf⟩
    · have hclaim := claimGroup_of_owns (g := g) (h.positional hp).owns
      exact ⟨_, .activeValue ho hval hf hp hclaim⟩
    · obtain ⟨s₁, hclaim⟩ := h.claimGroup_of_next hpending
      exact ⟨_, .nextValue ho hval hf hp hpending hsub hclaim⟩

/-- A value goes to the argument whose turn it is. -/
theorem Step.receives (h : Coherent g s) (hstep : Step g s v (.value slot) s') :
    ∃ p, s.receiver = some p ∧ p.slot = slot ∧ s.Receives p v s' := by
  cases hstep with
  | @remainderValue p hp hr =>
      have hf : s.flag = none := ((h.positional hp).remainder hr).2
      have hfull : p.advance.isFull = false := Progress.isFull_of_isRemainder hr
      exact ⟨p, receiver_of_positional hf hp, rfl, rfl, by simp [hf], by simp [hf, hfull]⟩
  | @remainderFlagValue p ho hf hr hw =>
      have hfull : p.advance.isFull = false := Progress.isFull_of_isRemainder hr
      exact ⟨p, receiver_of_flag hf, rfl, rfl, by simp [hf, hfull], by simp [hf]⟩
  | @flagValue p ho hval hf =>
      exact ⟨p, receiver_of_flag hf, rfl, rfl, by simp [hf], by simp [hf]⟩
  | @activeValue p s₁ ho hval hf hp hclaim =>
      have hn := claimGroup_narrows hclaim
      refine ⟨p, receiver_of_positional hf hp, rfl, ?_, ?_, ?_⟩
      · rw [withPositionalValue_values, hn.values]
      · simp [hn.flag, hf]
      · simp [hf]
  | @nextValue slot rest s₁ ho hval hf hp hpending hsub hclaim =>
      have hn := claimGroup_narrows hclaim
      refine ⟨{ slot }, receiver_of_pending hf hp hpending, rfl, ?_, ?_, ?_⟩
      · rw [withPositionalValue_values, hn.values]
      · simp [hn.flag, hf]
      · simp [hf]

/-- Where a subcommand is expected, a word hands over to the subcommand it names. -/
theorem Coherent.feed_of_dispatch (h : Coherent g s) (hv : v ≠ TabCompletion.endOfOptions)
    (ht : s.target g v ≠ .flags) (hr : s.receiver = some p) {subs : List (String × Grammar)}
    (hsub : p.arg.subcommands? = some subs) :
    s.feed g v = (subs.lookup v).elim (.error (.unknownSubcommand v)) fun child =>
      .ok (.delegate child) := by
  rcases receiver_cases hr with hf | ⟨hf, hp⟩ | ⟨hf, hp, slot, rest, hpending, rfl⟩
  · have hnone := ArgDef.subcommands?_of_isFlag (h.flag hf).isFlag
    rw [hsub] at hnone
    contradiction
  · have hnone := ArgDef.isDispatch_eq_false.mp (h.positional hp).notDispatch
    rw [hsub] at hnone
    contradiction
  · have ho : s.IsOpen := ⟨by simp [PositionalOpen, hp], by simp [hf]⟩
    have hsub : slot.arg.subcommands? = some subs := hsub
    rw [feed_of_positional ho (readsValue_of_target hv ht) hf]
    simp only [feedPositional, hp, hpending, hsub]
    cases subs.lookup v <;> rfl

/-- What is completed as a value is completed as one of the argument whose turn it is. -/
theorem complete_eq_completeValue {host : Host} {parents : ArgTokens} {request : CompletionRequest}
    (ht : s.target g request.text ≠ .flags) (hr : s.receiver = some p) :
    s.complete g host parents request =
      s.completeValue g host parents p s.flag.isSome request := by
  unfold complete
  cases hf : s.flag with
  | some q =>
      rw [receiver_of_flag hf] at hr
      cases hr
      rw [target_of_flag ht hf]
      rfl
  | none =>
      rw [receiver, hf, Option.none_or] at hr
      rw [target_of_nextPositional ht hf, hr]
      rfl

theorem asksFirst {host : Host} {parents : ArgTokens} {request : CompletionRequest}
    (ht : s.target g request.text ≠ .flags) (hr : s.receiver = some p) :
    AsksFirst g s host parents p request := by
  constructor
  · intro e he
    rw [complete_eq_completeValue ht hr, completeValue]
    simp only [he]
  · intro c hc hitems
    have hitems : (!c.items.isEmpty) = true := by simpa using hitems
    rw [complete_eq_completeValue ht hr, completeValue]
    simp only [hc, hitems, if_true]

/-! ## Both together -/

/-- A word is passed over just if no argument takes it. -/
theorem Coherent.feed_eq_self_iff (h : Coherent g s) (hv : v ≠ TabCompletion.endOfOptions)
    (ht : s.target g v ≠ .flags) : s.feed g v = .ok (.next s) ↔ s.receiver = none := by
  constructor
  · intro hfeed
    by_contra hsome
    obtain ⟨p, hr⟩ := Option.ne_none_iff_exists'.mp hsome
    cases hsub : p.arg.subcommands? with
    | some subs =>
        rw [h.feed_of_dispatch hv ht hr hsub] at hfeed
        cases hlookup : subs.lookup v <;> simp [hlookup] at hfeed
    | none =>
        obtain ⟨s', hstep⟩ := h.exists_valueStep hv ht hr hsub
        have hs' : s' = s := by
          rw [hstep.feed_eq] at hfeed
          cases hfeed
          rfl
        obtain ⟨q, -, -, hreceives⟩ := hstep.receives h
        -- The value is recorded, so the state is another.
        have hvalues := hreceives.values
        rw [hs'] at hvalues
        exact ArgTokens.push_ne _ _ _ hvalues.symm
  · intro hnone
    obtain ⟨hf, hp, hpending⟩ := receiver_eq_none.mp hnone
    have ho : s.IsOpen := ⟨by simp [PositionalOpen, hp], by simp [hf]⟩
    exact (Step.passedOver ho (readsValue_of_target hv ht) hf hp hpending).feed_eq

theorem target_eq_nothing_iff (ht : s.target g v ≠ .flags) :
    s.target g v = .nothing ↔ s.receiver = none := by
  have harg := argument?_target ht
  cases htarget : s.target g v with
  | flags => exact absurd htarget ht
  | nothing => simp_all [Target.argument?]
  | flagValue p | positional p => simp [← harg, htarget, Target.argument?]

/-- **Completing a word and reading it agree on what the word is.** In the state after any run and
for any word but the end of options:

- the word is completed as a flag just if it is read as one, and then both stop at an active flag
  that has too few values, or neither does;
- otherwise candidates are asked of the argument that the word is read as a value of, where for the
  dispatch argument reading hands over to the subcommand or finds none; and no argument is asked
  just if reading passes the word over. -/
theorem complete_agrees_with_feed {words : List String}
    (h : feedAll g (start g) words = .ok (.next s)) (hv : v ≠ TabCompletion.endOfOptions) :
    (s.target g v = .flags ↔ s.reading g v = .flag) ∧
    (s.target g v = .flags → ∀ host parents (request : CompletionRequest), request.text = v →
      ∀ name arity entered,
        (s.complete g host parents request = .error (.unfinishedArgument name arity entered) ↔
          s.feed g v = .error (.unfinishedArgument name arity entered))) ∧
    (s.target g v ≠ .flags →
      (s.target g v).argument? = s.receiver ∧
      (∀ p, s.receiver = some p → ∀ host parents (request : CompletionRequest), request.text = v →
        AsksFirst g s host parents p request) ∧
      (∀ p, s.receiver = some p → p.arg.subcommands? = none →
        ∃ s', s.feed g v = .ok (.next s') ∧ s.Receives p v s') ∧
      (∀ p subs, s.receiver = some p → p.arg.subcommands? = some subs →
        s.feed g v = (subs.lookup v).elim (.error (.unknownSubcommand v)) fun child =>
          .ok (.delegate child)) ∧
      (s.target g v = .nothing ↔ s.feed g v = .ok (.next s))) := by
  have hs := feedAll_coherent h
  have hflag : s.target g v = .flags ↔ s.reading g v = .flag :=
    target_eq_flags.trans (hs.reading_eq_flag hv).symm
  refine ⟨hflag, ?_, ?_⟩
  · rintro ht host parents request rfl name arity entered
    rw [complete_unfinished_iff ht, feed_unfinished_iff (hflag.mp ht)]
  · intro ht
    refine ⟨argument?_target ht, ?_, ?_, ?_, ?_⟩
    · rintro p hr host parents request rfl
      exact asksFirst ht hr
    · intro p hr hsub
      obtain ⟨s', hstep⟩ := hs.exists_valueStep hv ht hr hsub
      obtain ⟨q, hq, -, hreceives⟩ := hstep.receives hs
      rw [hr] at hq
      cases hq
      exact ⟨s', hstep.feed_eq, hreceives⟩
    · intro p subs hr hsub
      exact hs.feed_of_dispatch hv ht hr hsub
    · rw [target_eq_nothing_iff ht, hs.feed_eq_self_iff hv ht]

theorem second_name_goes_to_names :
    ∃ s p s', feedAll eitherOr (start eitherOr) ["a"] = .ok (.next s) ∧
      "b" ≠ TabCompletion.endOfOptions ∧ s.target eitherOr "b" ≠ .flags ∧
      (s.target eitherOr "b").argument? = some p ∧ s.feed eitherOr "b" = .ok (.next s') ∧
      s.Receives p "b" s' := by
  obtain ⟨s, p, hrun, hr, hsub⟩ :
      ∃ s p, feedAll eitherOr (start eitherOr) ["a"] = .ok (.next s) ∧ s.receiver = some p ∧
        p.arg.subcommands? = none :=
    ⟨_, _, rfl, rfl, rfl⟩
  have hv : "b" ≠ TabCompletion.endOfOptions := by decide
  have ht : s.target eitherOr "b" ≠ .flags := by
    have hlook : eitherOr.looksLikeFlag "b" = false := by decide
    simp [target_eq_flags, hlook]
  obtain ⟨-, -, hvalue⟩ := complete_agrees_with_feed hrun hv
  obtain ⟨harg, -, hfeed, -⟩ := hvalue ht
  obtain ⟨s', hs', hreceives⟩ := hfeed p hr hsub
  exact ⟨s, p, s', hrun, hv, ht, harg.trans hr, hs', hreceives⟩

end Replay

end TabCompletion
