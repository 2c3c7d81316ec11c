import TabCompletion.Proofs.Dealing
import TabCompletion.Proofs.Replay.FlagsOff
import TabCompletion.Proofs.Replay.Unfinished

/-!
# Positionals are filled in turn

Once flags are off, every word goes to a positional: to the first one until it has as many values as it
may, then to the next, and a word too many is passed over. So reading words deals them to the
positionals (`Waits.feedAll_deal`), and what each of them has in the end is its slice of the words.

Main statement: `positionals_filled_in_turn`.
-/

namespace TabCompletion

variable {p : Slot} {ps : List Slot} {words : List String} {i : Nat}

/-! ## Positionals that take words -/

/-- A positional that hands over to no subcommand, excludes nothing and takes a value. -/
structure Slot.TakesWords (p : Slot) : Prop where
  plain : p.arg.subcommands? = none
  ungrouped : p.arg.group = none
  room : p.arg.arity.max ≠ some 0

/-- The positionals of a grammar take words, each under a destination of its own. -/
structure Grammar.FillsInTurn (g : Grammar) : Prop where
  noDispatch : g.dispatch? = none
  ungrouped : ∀ p ∈ g.positionals, p.arg.group = none
  distinct : (g.positionals.map (·.arg.dest)).Nodup
  room : ∀ p ∈ g.positionals, p.arg.arity.max ≠ some 0

theorem Grammar.FillsInTurn.takesWords {g : Grammar} (h : g.FillsInTurn) (hp : p ∈ g.positionals) :
    p.TakesWords := by
  refine ⟨?_, h.ungrouped p hp, h.room p hp⟩
  have hnone := List.find?_eq_none.mp h.noDispatch p (Grammar.mem_positionals.mp hp).1
  rw [Bool.not_eq_true] at hnone
  exact ArgDef.isDispatch_eq_false.mp hnone

namespace Replay

variable {g : Grammar} {s t : Replay} {word : String} {q : Progress}

/-! ## One positional -/

/-- Every argument without a group has its group. -/
theorem owns_of_ungrouped (h : p.arg.group = none) : s.Owns p := by
  intro group hgroup
  rw [h] at hgroup
  contradiction

theorem feed_of_active (hoff : s.flagsOff = true) (hf : s.flag = none) (hp : s.positional = some q)
    (hgroup : q.arg.group = none) :
    s.feed g word = .ok (.next
      { s with
        positional := if q.advance.isFull then none else some q.advance
        values := s.values.push q.arg.dest word }) := by
  by_cases hr : q.isRemainder = true
  · have hfull : q.advance.isFull = false := Progress.isFull_of_isRemainder hr
    rw [hfull, if_neg Bool.false_ne_true]
    exact (Step.remainderValue hp hr).feed_eq
  · have ho : s.IsOpen := by
      constructor
      · intro p hq
        rw [hp, Option.some.injEq] at hq
        exact hq ▸ (by simpa using hr)
      · simp [hf]
    have hclaim : s.claimGroup g q.slot = .ok s := claimGroup_of_owns (owns_of_ungrouped hgroup)
    rw [(Step.activeValue ho (Or.inl hoff) hf hp hclaim).feed_eq, withPositionalValue_eq, hoff]
    rfl

/-- A word for the next positional is read as though it were active already. -/
theorem feed_of_next (hoff : s.flagsOff = true) (hf : s.flag = none) (hp : s.positional = none)
    (hpending : s.pending = p :: ps) (hsub : p.arg.subcommands? = none)
    (hgroup : p.arg.group = none) :
    s.feed g word =
      ({ s with pending := ps, positional := some { slot := p } } : Replay).feed g word := by
  have ho : s.IsOpen := ⟨by simp [PositionalOpen, hp], by simp [hf]⟩
  have hclaim : ({ s with pending := ps } : Replay).claimGroup g p = .ok { s with pending := ps } :=
    claimGroup_of_owns (owns_of_ungrouped hgroup)
  have hactive : ({ s with pending := ps, positional := some { slot := p } } : Replay).feed g word =
      .ok (.next _) := feed_of_active hoff hf rfl hgroup
  rw [(Step.nextValue ho (Or.inl hoff) hf hp hpending hsub hclaim).feed_eq, hactive,
    withPositionalValue_eq]
  simp [hoff]

/-- **An active positional takes the words after it**, as far as it has room, and is done once it is
full. -/
theorem feedAll_of_active (hoff : s.flagsOff = true) (hf : s.flag = none)
    (hp : s.positional = some q) (hgroup : q.arg.group = none) (hopen : q.isFull = false)
    (hroom : q.HasRoom words.length) :
    feedAll g s words = .ok (.next
      { s with
        positional := if (q.advanceBy words.length).isFull then none
          else some (q.advanceBy words.length)
        values := s.values.pushAll q.arg.dest words }) := by
  induction words generalizing s q with
  | nil =>
      rw [feedAll, List.length_nil, Progress.advanceBy_zero, hopen, if_neg Bool.false_ne_true,
        ArgTokens.pushAll_nil, ← hp]
  | cons word words ih =>
      rw [feedAll, feed_of_active hoff hf hp hgroup]
      by_cases hfull : q.advance.isFull = true
      · obtain rfl : words = [] := List.eq_nil_of_length_eq_zero (hroom.eq_zero_of_isFull hfull)
        rfl
      · have hopen' : q.advance.isFull = false := by simpa using hfull
        have hrun : feedAll g
            { s with positional := some q.advance, values := s.values.push q.arg.dest word } words =
              .ok (.next _) := ih hoff hf rfl hgroup hopen' hroom.advance
        simp only [if_neg hfull, hrun, Progress.advance_advanceBy, List.length_cons,
          Progress.advance_arg, ArgTokens.pushAll_cons]

/-! ## One after the other -/

/-- Flags are off, no argument is taking values, and these positionals are waited for. -/
structure Waits (s : Replay) (ps : List Slot) : Prop where
  flagsOff : s.flagsOff = true
  flag : s.flag = none
  positional : s.positional = none
  pending : s.pending = ps

/-- The state `t` is `s` after words were dealt to the positionals `ps`. -/
structure Dealt (s t : Replay) (ps : List Slot) (words : List String) : Prop where
  flagsOff : t.flagsOff = true
  flag : t.flag = none
  values : t.values = s.values.pushShares (deal ps words)
  next : t.nextPositional =
    ((deal ps words).find? fun e => !e.1.arg.arity.isFull e.2.length).map fun e => ⟨e.1, e.2.length⟩

/-- Where no positional is left, words are passed over. -/
theorem Waits.feedAll_passedOver (h : s.Waits []) : feedAll g s words = .ok (.next s) := by
  have ho : s.IsOpen := ⟨by simp [PositionalOpen, h.positional], by simp [h.flag]⟩
  induction words with
  | nil => rfl
  | cons word words ih =>
      have hstep : Step g s word .passedOver s :=
        .passedOver ho (Or.inl h.flagsOff) h.flag h.positional h.pending
      rw [feedAll, hstep.feed_eq]
      exact ih

/-- The first of the positionals takes its share. -/
theorem Waits.feedAll_share (h : s.Waits (p :: ps)) (hp : p.TakesWords) (hwords : words ≠ []) :
    feedAll g s (p.arg.arity.share words) = .ok (.next
      { s with
        pending := ps
        positional :=
          if p.arg.arity.isFull (p.arg.arity.share words).length then none
          else some ⟨p, (p.arg.arity.share words).length⟩
        values := s.values.pushAll p.arg.dest (p.arg.arity.share words) }) := by
  have hroom : Progress.HasRoom { slot := p } (p.arg.arity.share words).length := by
    intro most hmax
    show 0 + (p.arg.arity.share words).length ≤ most
    rw [Nat.zero_add]
    exact Arity.length_share_le hmax
  have hopen : ({ slot := p } : Progress).isFull = false := by
    rw [Progress.isFull_eq_false]
    rintro (_ | most) hmax
    · exact absurd hmax hp.room
    · exact Nat.succ_pos most
  have hactive : feedAll g { s with pending := ps, positional := some { slot := p } }
      (p.arg.arity.share words) = .ok (.next _) :=
    feedAll_of_active h.flagsOff h.flag rfl hp.ungrouped hopen hroom
  have hshare : p.arg.arity.share words ≠ [] := Arity.share_ne_nil hp.room hwords
  simp only [Progress.advanceBy, Nat.zero_add] at hactive
  -- The first word of the share makes the positional active.
  generalize p.arg.arity.share words = share at hactive hshare ⊢
  cases share with
  | nil => contradiction
  | cons word share =>
      rw [feedAll, feed_of_next h.flagsOff h.flag h.positional h.pending hp.plain hp.ungrouped]
      exact hactive

/-- **Positionals that are waited for are dealt the words**, and the words that they do not take make no
difference. -/
theorem Waits.feedAll_deal (h : s.Waits ps) (hps : ∀ p ∈ ps, p.TakesWords) (words : List String) :
    ∃ t, feedAll g s words = .ok (.next t) ∧
      feedAll g s (words.take (takenBy ps words.length)) = .ok (.next t) ∧ s.Dealt t ps words := by
  induction ps generalizing s words with
  | nil =>
      refine ⟨s, h.feedAll_passedOver, h.feedAll_passedOver, h.flagsOff, h.flag, rfl, ?_⟩
      simp [nextPositional, h.positional, h.pending, deal]
  | cons p ps ih =>
      obtain ⟨hp, hps⟩ := List.forall_mem_cons.mp hps
      by_cases hwords : words = []
      · -- The first positional is next already.
        subst hwords
        refine ⟨s, rfl, ?_, h.flagsOff, h.flag, ?_, ?_⟩
        · rw [List.take_nil, feedAll]
        · exact ArgTokens.pushShares_deal_nil.symm
        · rw [deal, Arity.share_nil, List.find?_cons_of_pos (by simp [Arity.isFull_zero hp.room])]
          simp [nextPositional, h.positional, h.pending]
      · have hshare := h.feedAll_share (g := g) hp hwords
        rw [take_takenBy_cons]
        by_cases hfull : p.arg.arity.isFull (p.arg.arity.share words).length = true
        · rw [if_pos hfull] at hshare
          have hrest : Waits
              { s with
                pending := ps
                positional := none
                values := s.values.pushAll p.arg.dest (p.arg.arity.share words) } ps :=
            ⟨h.flagsOff, h.flag, rfl, rfl⟩
          obtain ⟨t, hrun, htaken, ht⟩ := ih hrest hps (p.arg.arity.leave words)
          refine ⟨t, ?_, ?_, ht.flagsOff, ht.flag, ht.values, ?_⟩
          · rw [← p.arg.arity.share_append_leave words, feedAll_append hshare]
            exact hrun
          · rw [feedAll_append hshare]
            exact htaken
          · rw [deal, List.find?_cons_of_neg (by simp [hfull])]
            exact ht.next
        · -- The first positional could take more, so nothing is left.
          have hopen : p.arg.arity.isFull (p.arg.arity.share words).length = false := by
            simpa using hfull
          have hleave := Arity.leave_eq_nil hopen
          have hall := p.arg.arity.share_append_leave words
          rw [hleave, List.append_nil] at hall
          rw [if_neg hfull] at hshare
          have hwhole : feedAll g s words = .ok (.next _) :=
            (congrArg (feedAll g s) hall).symm.trans hshare
          refine ⟨_, hwhole, ?_, h.flagsOff, h.flag, ?_, ?_⟩
          · rw [hleave, List.take_nil, List.append_nil]
            exact hshare
          · rw [deal, hleave]
            exact ArgTokens.pushShares_deal_nil.symm
          · rw [deal, List.find?_cons_of_pos (by simp [hopen])]
            rfl

/-! ## After the end of options -/

variable {host : Host} {parents : ArgTokens} {request : CompletionRequest}

/-- The first positional with room for another word is asked for candidates. -/
theorem Dealt.complete_of_room (h : s.Dealt t ps words) (hp : ps[i]? = some p)
    (hroom : isFilledAt ps words i = false) (hfull : ∀ j < i, isFilledAt ps words j = true) :
    t.complete g host parents request =
      t.completeValue g host parents ⟨p, (sliceAt ps words i).length⟩ false request := by
  have hfind : ((deal ps words).find? fun e => !e.1.arg.arity.isFull e.2.length) =
      some (p, sliceAt ps words i) := by
    rw [List.find?_eq_some_iff_getElem]
    have hi : (deal ps words)[i]? = some (p, sliceAt ps words i) := by
      rw [deal_getElem?, hp, Option.map_some]
    obtain ⟨hlt, hget⟩ := List.getElem?_eq_some_iff.mp hi
    refine ⟨by simpa [isFilledAt, hp] using hroom, i, hlt, hget, ?_⟩
    intro j hj
    have hfilled := hfull j hj
    rw [← isFull_deal_getElem (Nat.lt_trans hj hlt)] at hfilled
    simp [hfilled]
  have hr : t.receiver = some ⟨p, (sliceAt ps words i).length⟩ := by
    rw [receiver, h.flag, Option.none_or, h.next, hfind, Option.map_some]
  rw [complete_eq_completeValue (target_ne_flags h.flagsOff) hr, h.flag, Option.isSome_none]

/-- Where every positional is full nothing is completed. -/
theorem Dealt.complete_of_full (h : s.Dealt t ps words)
    (hfull : ∀ i < ps.length, isFilledAt ps words i = true) :
    t.complete g host parents request = .ok {} := by
  have hfind : ((deal ps words).find? fun e => !e.1.arg.arity.isFull e.2.length) = none := by
    rw [List.find?_eq_none]
    intro e he
    obtain ⟨i, hi, rfl⟩ := List.mem_iff_getElem.mp he
    have hfilled := hfull i (deal_length ps words ▸ hi)
    rw [← isFull_deal_getElem hi] at hfilled
    simp [hfilled]
  have hr : t.receiver = none := by
    rw [receiver, h.flag, Option.none_or, h.next, hfind, Option.map_none]
  rw [complete_of_flagsOff h.flagsOff, valueAnswer, hr]

/-- **Positionals are filled in turn.** Let every positional of a grammar take words, exclude nothing
and have a destination of its own, and let words follow the end of options. Under the destination of
each positional stands its slice of the words, or nothing if the slice is empty; there are no other
values. The words after the last slice make no difference. The first positional whose slice is less
than it may take is completed next, and if there is none nothing is. -/
theorem positionals_filled_in_turn (hg : g.FillsInTurn) (words : List String) :
    ∃ t, feedAll g (start g) (endOfOptions :: words) = .ok (.next t) ∧
      feedAll g (start g)
        (endOfOptions :: words.take (takenBy g.positionals words.length)) = .ok (.next t) ∧
      (∀ i p, g.positionals[i]? = some p →
        t.values.get? p.arg.dest =
          if sliceAt g.positionals words i = [] then none
          else some (sliceAt g.positionals words i)) ∧
      (∀ dest, (∀ p ∈ g.positionals, p.arg.dest ≠ dest) → t.values.get? dest = none) ∧
      (∀ i p, g.positionals[i]? = some p → isFilledAt g.positionals words i = false →
        (∀ j < i, isFilledAt g.positionals words j = true) →
        ∀ host parents request, t.complete g host parents request =
          t.completeValue g host parents ⟨p, (sliceAt g.positionals words i).length⟩ false
            request) ∧
      ((∀ i < g.positionals.length, isFilledAt g.positionals words i = true) →
        ∀ host parents request, t.complete g host parents request = .ok {}) := by
  have hend : Step g (start g) endOfOptions .endOfOptions _ :=
    .endOfOptions ⟨by simp [PositionalOpen, start], by simp [start]⟩ rfl rfl rfl
  have hwaits : Waits { start g with flag := none, flagsOff := true } g.positionals :=
    ⟨rfl, rfl, rfl, rfl⟩
  obtain ⟨t, hrun, htaken, ht⟩ := hwaits.feedAll_deal (fun p hp => hg.takesWords hp) words
  refine ⟨t, ?_, ?_, ?_, ?_, ?_, ?_⟩
  · exact feedAll_cons_next.mpr ⟨_, _, hend, hrun⟩
  · exact feedAll_cons_next.mpr ⟨_, _, hend, htaken⟩
  · intro i p hp
    have hmem : (p, sliceAt g.positionals words i) ∈ deal g.positionals words := by
      apply List.mem_of_getElem? (i := i)
      rw [deal_getElem?, hp, Option.map_some]
    have hdistinct : ((deal g.positionals words).map (·.1.arg.dest)).Nodup := by
      have hdests : ((deal g.positionals words).map (·.1)).map (·.arg.dest) =
          (deal g.positionals words).map (·.1.arg.dest) := List.map_map
      rw [← hdests, map_fst_deal]
      exact hg.distinct
    rw [ht.values, ArgTokens.get?_pushShares hdistinct hmem]
    rfl
  · intro dest hdest
    rw [ht.values, ArgTokens.get?_pushShares_of_ne]
    · rfl
    · intro e he
      apply hdest
      rw [← map_fst_deal g.positionals words]
      exact List.mem_map_of_mem he
  · intro i p hp hroom hfull host parents request
    exact ht.complete_of_room hp hroom hfull
  · intro hfull host parents request
    exact ht.complete_of_full hfull

/-- A command with two names, a size that may be left out, and one file or two. -/
def filing : GrammarSpec :=
  { prog := "cmd"
    items :=
      [.arg { name := some "names", nargs := some (.exactly 2) },
        .arg { name := some "size", nargs := some .optional },
        .arg { name := some "files", nargs := some (.range 1 (some 2)) },
        .arg { aliases := ["--v"], action := .storeTrue }] }

theorem second_file_is_next :
    ∃ g t p, filing.build = .ok g ∧
      feedAll g (start g) ["--", "a", "--v", "10", "x"] = .ok (.next t) ∧
      t.values.get? "names" = some ["a", "--v"] ∧ t.values.get? "size" = some ["10"] ∧
      t.values.get? "files" = some ["x"] ∧ g.positionals[2]? = some p ∧
      ∀ host parents request,
        t.complete g host parents request = t.completeValue g host parents ⟨p, 1⟩ false request := by
  obtain ⟨g, names, size, files, hbuild, hp, hdispatch, hgroups, hdests, hmax, hslices, hfilled⟩ :
      ∃ g names size files, filing.build = .ok g ∧ g.positionals = [names, size, files] ∧
        g.dispatch? = none ∧
        g.positionals.map (·.arg.group) = [none, none, none] ∧
        g.positionals.map (·.arg.dest) = ["names", "size", "files"] ∧
        g.positionals.map (·.arg.arity.max) = [some 2, some 1, some 2] ∧
        [0, 1, 2].map (sliceAt g.positionals ["a", "--v", "10", "x"]) =
          [["a", "--v"], ["10"], ["x"]] ∧
        [0, 1, 2].map (isFilledAt g.positionals ["a", "--v", "10", "x"]) = [true, true, false] :=
    ⟨_, _, _, _, rfl, rfl, rfl, rfl, rfl, rfl, rfl, rfl⟩
  have hg : g.FillsInTurn := by
    refine ⟨hdispatch, ?_, ?_, ?_⟩
    · intro p hmem
      have hgroup := List.mem_map_of_mem (f := fun p : Slot => p.arg.group) hmem
      rw [hgroups] at hgroup
      simpa using hgroup
    · rw [hdests]
      decide
    · intro p hmem hzero
      have hbound := List.mem_map_of_mem (f := fun p : Slot => p.arg.arity.max) hmem
      rw [hmax, hzero] at hbound
      simp at hbound
  simp only [List.map_cons, List.map_nil, List.cons.injEq, and_true] at hslices hfilled
  simp only [hp, List.map_cons, List.map_nil, List.cons.injEq, and_true] at hdests
  obtain ⟨hnames, hsize, hfiles⟩ := hslices
  obtain ⟨hfull, hfull', hroom⟩ := hfilled
  obtain ⟨t, hrun, -, hvalues, -, hnext, -⟩ :=
    positionals_filled_in_turn hg ["a", "--v", "10", "x"]
  have hearlier : ∀ j < 2, isFilledAt g.positionals ["a", "--v", "10", "x"] j = true := by
    rintro (_ | _ | j) hj
    · exact hfull
    · exact hfull'
    · omega
  have hplaces : g.positionals[0]? = some names ∧ g.positionals[1]? = some size ∧
      g.positionals[2]? = some files := by simp [hp]
  refine ⟨g, t, files, hbuild, hrun, ?_, ?_, ?_, hplaces.2.2, ?_⟩
  · rw [← hdests.1, hvalues 0 names hplaces.1, hnames]
    rfl
  · rw [← hdests.2.1, hvalues 1 size hplaces.2.1, hsize]
    rfl
  · rw [← hdests.2.2, hvalues 2 files hplaces.2.2, hfiles]
    rfl
  · have hcomplete := hnext 2 files hplaces.2.2 hroom hearlier
    rw [hfiles] at hcomplete
    exact hcomplete

end Replay

end TabCompletion
