import TabCompletion.Proofs.Grammar.Spellings
import TabCompletion.Proofs.Replay.History
import TabCompletion.Proofs.Replay.Target

/-!
# The flags that are offered

Where completing a word comes to offering flags (`ReachesFlags`), it offers the spellings that the
words before it have left (`StillOffered`), in the order of the grammar's table, and reading any of
them as the next word finds its flag.
-/

namespace TabCompletion

variable {g : Grammar} {spec : GrammarSpec}

/-- A word is not both one prefix character and something that looks like a flag. -/
theorem Grammar.looksLikeFlag_of_isSinglePrefixChar {word : String}
    (h : g.isSinglePrefixChar word = true) : g.looksLikeFlag word = false := by
  unfold isSinglePrefixChar at h
  unfold looksLikeFlag
  split at h
  · next c hword => simp [hword]
  · contradiction

@[simp] theorem Completions.values_ofValues (values : List String) :
    (Completions.ofValues values).values = values := by
  simp [Completions.values, ofValues, Function.comp_def]

theorem Scope.hintFor_completions {scope : Scope} {d : ArgDef Grammar} :
    (scope.hintFor d).completions = {} := by
  unfold hintFor
  split <;> rfl

namespace Replay

variable {s s' : Replay} {words : List String} {rs : List Role} {host : Host} {parents : ArgTokens}
  {request : CompletionRequest} {p : Progress} {f : Slot} {text a : String}

/-! ## When flags are offered -/

/-- Completing a word comes to offering flags: no active flag is in want of values, flags are read,
and the word looks like a flag, or is one prefix character for which the argument whose turn it is,
if any, has no candidates. -/
structure ReachesFlags (g : Grammar) (s : Replay) (host : Host) (parents : ArgTokens)
    (request : CompletionRequest) : Prop where
  done : s.checkFlag = .ok ()
  flagsOn : s.flagsOff = false
  word : g.looksLikeFlag request.text = true ∨ g.isSinglePrefixChar request.text = true ∧
    ∀ p, s.receiver = some p → ∃ c,
      ({ host, parents, values := s.values } : Scope).completeArg p.arg request = .ok c ∧
        c.items = []

theorem checkFlag_eq_ok :
    s.checkFlag = .ok () ↔ ∀ p, s.flag = some p → p.isUnfinished = false := by
  unfold checkFlag
  cases s.flag with
  | none => simp
  | some p => cases hp : p.isUnfinished <;> simp [hp]

/-- The active flag is the one whose turn it is. -/
theorem checkFlag_eq_ok_of_receiver (hr : s.receiver = some p) :
    s.checkFlag = .ok () ↔ (s.flag.isSome && p.isUnfinished) = false := by
  rw [checkFlag_eq_ok]
  cases hf : s.flag with
  | none => simp
  | some q =>
      rw [receiver_of_flag hf] at hr
      cases hr
      simp

theorem completeValue_of_nil {c : Completions} {isFlag : Bool}
    (hc : ({ host, parents, values := s.values } : Scope).completeArg p.arg request = .ok c)
    (hitems : c.items = []) :
    s.completeValue g host parents p isFlag request =
      if (isFlag && p.isUnfinished) || !g.isSinglePrefixChar request.text || s.flagsOff then
        .ok (({ host, parents, values := s.values } : Scope).hintFor p.arg)
      else .ok (s.completeFlags g request.text) := by
  rw [completeValue]
  simp only [hc, hitems]
  rfl

theorem ReachesFlags.complete_eq (h : s.ReachesFlags g host parents request) :
    s.complete g host parents request = .ok (s.completeFlags g request.text) := by
  rcases h.word with hlook | ⟨hsingle, hnone⟩
  · have ht : s.target g request.text = .flags := target_eq_flags.mpr ⟨hlook, h.flagsOn⟩
    simp only [complete, ht, h.done]
  · have ht : s.target g request.text ≠ .flags := by
      intro ht
      have hlook := (target_eq_flags.mp ht).1
      rw [Grammar.looksLikeFlag_of_isSinglePrefixChar hsingle] at hlook
      contradiction
    cases hr : s.receiver with
    | none =>
        have hnothing := (target_eq_nothing_iff ht).mpr hr
        simp [complete, hnothing, hsingle, h.flagsOn]
    | some p =>
        obtain ⟨c, hc, hitems⟩ := hnone p hr
        have hdone := (checkFlag_eq_ok_of_receiver hr).mp h.done
        rw [complete_eq_completeValue ht hr, completeValue_of_nil hc hitems, if_neg]
        simp [hdone, hsingle, h.flagsOn]

/-- **The ways in which completing a word ends**: it offers flags, fails, gives the candidates of the
argument whose turn it is, or gives none and perhaps a hint. -/
theorem complete_cases (g : Grammar) (s : Replay) (host : Host) (parents : ArgTokens)
    (request : CompletionRequest) :
    s.ReachesFlags g host parents request ∨
      (∃ e, s.complete g host parents request = .error e) ∨
      (∃ p c, s.receiver = some p ∧
        ({ host, parents, values := s.values } : Scope).completeArg p.arg request = .ok c ∧
        s.complete g host parents request = .ok { completions := c }) ∨
      ∃ answer, s.complete g host parents request = .ok answer ∧ answer.completions = {} := by
  by_cases ht : s.target g request.text = .flags
  · obtain ⟨hlook, hon⟩ := target_eq_flags.mp ht
    cases hdone : s.checkFlag with
    | error e => exact Or.inr (Or.inl ⟨e, by simp only [complete, ht, hdone]⟩)
    | ok u => exact Or.inl ⟨hdone, hon, Or.inl hlook⟩
  · cases hr : s.receiver with
    | none =>
        have hnothing := (target_eq_nothing_iff ht).mpr hr
        have hf := (receiver_eq_none.mp hr).1
        by_cases hlone : g.isSinglePrefixChar request.text = true ∧ s.flagsOff = false
        · have hdone : s.checkFlag = .ok () := checkFlag_eq_ok.mpr (by simp [hf])
          exact Or.inl ⟨hdone, hlone.2, Or.inr ⟨hlone.1, by simp [hr]⟩⟩
        · refine Or.inr (Or.inr (Or.inr ⟨{}, ?_, rfl⟩))
          have hlone : (g.isSinglePrefixChar request.text && !s.flagsOff) = false := by
            simpa using hlone
          simp only [complete, hnothing, hlone, Bool.false_eq_true, if_false]
    | some p =>
        cases hc : ({ host, parents, values := s.values } : Scope).completeArg p.arg request with
        | error e => exact Or.inr (Or.inl ⟨e, (asksFirst ht hr).failure e hc⟩)
        | ok c =>
            by_cases hitems : c.items = []
            · have hcomplete : s.complete g host parents request = _ :=
                complete_eq_completeValue ht hr
              rw [completeValue_of_nil hc hitems] at hcomplete
              split at hcomplete
              · exact Or.inr (Or.inr (Or.inr ⟨_, hcomplete, Scope.hintFor_completions⟩))
              · next hopen =>
                  simp only [Bool.or_eq_true, not_or, Bool.not_eq_true, Bool.not_eq_false'] at hopen
                  obtain ⟨⟨hfinished, hsingle⟩, hon⟩ := hopen
                  have hdone := (checkFlag_eq_ok_of_receiver hr).mpr hfinished
                  refine Or.inl ⟨hdone, hon, Or.inr ⟨hsingle, ?_⟩⟩
                  intro q hq
                  rw [hr, Option.some.injEq] at hq
                  exact ⟨c, hq ▸ hc, hitems⟩
            · exact Or.inr (Or.inr (Or.inl ⟨p, c, rfl, hc, (asksFirst ht hr).answer c hc hitems⟩))

/-! ## What is offered -/

/-- A flag may still be offered after words that turned out to be `rs`: it is shown, was not met
unless it may be repeated, and no other member of its exclusive group came into use. -/
structure StillOffered (g : Grammar) (rs : List Role) (f : Slot) : Prop where
  shown : f.arg.hidden = false
  unspent : f.arg.isReusable = false → Role.flag (some f) ∉ rs
  unrivalled : ∀ m, g.Rivals f m → m ∉ entrants rs

/-- A spelling is withdrawn on account of its owner alone. -/
theorem Recorded.mem_used_iff (h : Recorded g rs s) (hg : g.SpellingsDistinct)
    (hf : (a, f) ∈ g.flagTable) :
    a ∈ s.used ↔ (f.arg.isReusable = false ∧ Role.flag (some f) ∈ rs) ∨
      ∃ m, g.Rivals f m ∧ m ∈ entrants rs := by
  obtain ⟨hslot, ha⟩ := Grammar.mem_flagTable.mp hf
  have hisFlag := ArgDef.isFlag_of_mem_aliases ha
  rw [h.used, ← mem_entrants_of_isFlag hisFlag]
  constructor
  · rintro ⟨m, hm, ⟨hreusable, ham⟩ | ⟨k, hrivals, hak⟩⟩
    · have hmf := hg (h.mem m hm) hslot ham ha
      subst hmf
      exact Or.inl ⟨hreusable, hm⟩
    · obtain ⟨-, group, -, hk⟩ := id hrivals
      have hkf := hg (Grammar.mem_groupMembers.mp hk).1 hslot hak ha
      subst hkf
      exact Or.inr ⟨m, hrivals.symm, hm⟩
  · rintro (⟨hreusable, hmet⟩ | ⟨m, hrivals, hm⟩)
    · exact ⟨f, hmet, Or.inl ⟨hreusable, ha⟩⟩
    · exact ⟨m, hm, Or.inr ⟨f, hrivals.symm, ha⟩⟩

theorem Recorded.stillOffered_iff (h : Recorded g rs s) (hg : g.SpellingsDistinct)
    (hf : (a, f) ∈ g.flagTable) :
    StillOffered g rs f ↔ a ∉ s.used ∧ f.arg.hidden = false := by
  rw [h.mem_used_iff hg hf, not_or, not_and, not_exists]
  constructor
  · rintro ⟨hshown, hunspent, hunrivalled⟩
    exact ⟨⟨hunspent, fun m hm => hunrivalled m hm.1 hm.2⟩, hshown⟩
  · rintro ⟨⟨hunspent, hunrivalled⟩, hshown⟩
    exact ⟨hshown, hunspent, fun m hr hm => hunrivalled m ⟨hr, hm⟩⟩

theorem mem_offeredFlags :
    a ∈ s.offeredFlags g text ↔
      Text.beginsWith a text = true ∧ a ∉ s.used ∧
        ∃ f, (a, f) ∈ g.flagTable ∧ f.arg.hidden = false := by
  simp only [offeredFlags, beginningWith, List.mem_filter, List.mem_map]
  constructor
  · rintro ⟨⟨⟨b, f⟩, ⟨hf, hopen⟩, rfl⟩, hbegins⟩
    simp only [Bool.and_eq_true, Bool.not_eq_true', List.contains_eq_mem, decide_eq_false_iff_not]
      at hopen
    exact ⟨hbegins, hopen.1, f, hf, hopen.2⟩
  · rintro ⟨hbegins, hused, f, hf, hshown⟩
    refine ⟨⟨(a, f), ⟨hf, ?_⟩, rfl⟩, hbegins⟩
    simp [hused, hshown]

open scoped Classical in
/-- The spellings on offer are those of the table that the words have left, in its order. -/
theorem Recorded.offeredFlags_eq (h : Recorded g rs s) (hg : g.SpellingsDistinct) :
    s.offeredFlags g text =
      (g.flagTable.filter fun e =>
        decide (Text.beginsWith e.1 text = true ∧ StillOffered g rs e.2)).map (·.1) := by
  rw [offeredFlags, beginningWith, List.filter_map, List.filter_filter]
  congr 1
  apply List.filter_congr
  rintro ⟨a, f⟩ hf
  rw [Bool.eq_iff_iff, decide_eq_true_iff, h.stillOffered_iff hg hf]
  simp

open scoped Classical in
/-- **Exactly the flags that the words have left are offered.** In the state after a run of a built
grammar, where completing a word comes to offering flags, the answer is the spellings that begin
with the word, in the order of the table, of the flags that are shown, that no word named unless
they may be repeated, and of whose exclusive group no other member came into use. -/
theorem complete_offers_exactly (hbuild : spec.build = .ok g)
    (hrun : feedAll g (start g) words = .ok (.next s))
    (hreach : s.ReachesFlags g host parents request) :
    s.complete g host parents request = .ok
      { completions := .ofValues ((g.flagTable.filter fun e =>
          decide (Text.beginsWith e.1 request.text = true ∧
            StillOffered g (roles g (start g) words) e.2)).map (·.1)) } := by
  have hdistinct := Grammar.build_spellingsDistinct hbuild
  rw [hreach.complete_eq, completeFlags, (feedAll_recorded hrun).offeredFlags_eq hdistinct]

/-- A command with a flag that may be repeated, two that may not, and two that exclude each other. -/
def listing : GrammarSpec :=
  { prog := "listing"
    items :=
      [.arg { aliases := ["--tag"], action := .append },
        .arg { aliases := ["--all", "-a"], action := .storeTrue },
        .exclusive false
          [{ aliases := ["--json"], action := .storeTrue },
            { aliases := ["--table"], action := .storeTrue }],
        .arg { aliases := ["--long"], action := .storeTrue }] }

/-- The request for a flag after some words. -/
def flagRequest : CompletionRequest :=
  { text := "--", line := "listing --tag x --js --al --", begidx := 26, endidx := 28 }

open scoped Classical in
theorem tag_and_long_are_left :
    ∃ g s, listing.build = .ok g ∧
      feedAll g (start g) ["--tag", "x", "--js", "--al"] = .ok (.next s) ∧
      s.ReachesFlags g {} .empty flagRequest ∧
      s.complete g {} .empty flagRequest = .ok { completions := .ofValues ["--tag", "--long"] } ∧
      (g.flagTable.filter fun e =>
        decide (Text.beginsWith e.1 "--" = true ∧
          StillOffered g (roles g (start g) ["--tag", "x", "--js", "--al"]) e.2)).map (·.1) =
        ["--tag", "--long"] := by
  obtain ⟨g, s, hbuild, hrun, hdone, hon, hlook, hcomplete⟩ :
      ∃ g s, listing.build = .ok g ∧
        feedAll g (start g) ["--tag", "x", "--js", "--al"] = .ok (.next s) ∧
        s.checkFlag = .ok () ∧ s.flagsOff = false ∧ g.looksLikeFlag "--" = true ∧
        s.complete g {} .empty flagRequest = .ok { completions := .ofValues ["--tag", "--long"] } :=
    ⟨_, _, rfl, rfl, rfl, rfl, rfl, rfl⟩
  have hreach : s.ReachesFlags g {} .empty flagRequest := ⟨hdone, hon, Or.inl hlook⟩
  have hexact := complete_offers_exactly hbuild hrun hreach
  refine ⟨g, s, hbuild, hrun, hreach, hcomplete, ?_⟩
  rw [hcomplete, Except.ok.injEq] at hexact
  have hvalues := congrArg (fun answer : Answer => answer.completions.values) hexact
  simp only [Completions.values_ofValues] at hvalues
  exact hvalues.symm

/-! ## What is offered is read -/

/-- Where flags are read no active argument takes everything that follows. -/
theorem Coherent.isOpen (h : Coherent g s) (hon : s.flagsOff = false) : s.IsOpen where
  positional p hp := by
    by_contra hr
    rw [((h.positional hp).remainder (by simpa using hr)).1] at hon
    contradiction
  flag p hp := by
    rw [← (h.flag hp).flagsOff]
    exact hon

/-- An argument whose spelling is still offered may take its group. -/
theorem Coherent.claimGroup_of_not_used (h : Coherent g s) (hf : f ∈ g.slots)
    (ha : a ∈ f.arg.aliases) (hused : a ∉ s.used) : ∃ s₁, s.claimGroup g f = .ok s₁ := by
  apply exists_claimGroup
  intro group owner hgroup howner
  have hmem := Grammar.mem_groupMembers.mpr ⟨hf, hgroup⟩
  -- Another owner would have withdrawn the spelling.
  by_contra hne
  exact hused ((h.taken howner).used f hmem (Ne.symm hne) ha)

/-- **A flag that is offered is a flag that is read.** In the state after a run of a built grammar,
where completing a word comes to offering flags, every offered spelling that looks like a flag and
is not the end of options is the spelling of one flag, and reading it finds that flag: it leaves a
state, so that neither a want of values nor an exclusive group nor a subcommand stands in the way. -/
theorem offered_flag_is_read (hbuild : spec.build = .ok g)
    (hrun : feedAll g (start g) words = .ok (.next s))
    (hreach : s.ReachesFlags g host parents request) {answer : Answer}
    (hanswer : s.complete g host parents request = .ok answer)
    (ha : a ∈ answer.completions.values) (hlook : g.looksLikeFlag a = true)
    (hne : a ≠ TabCompletion.endOfOptions) :
    ∃ f s', (f ∈ g.slots ∧ a ∈ f.arg.aliases ∧ ∀ k ∈ g.slots, a ∈ k.arg.aliases → k = f) ∧
      s.feed g a = .ok (.next s') ∧ s.role g a = .flag (some f) := by
  have hdistinct := Grammar.build_spellingsDistinct hbuild
  have hs := feedAll_coherent hrun
  rw [hreach.complete_eq, Except.ok.injEq] at hanswer
  subst hanswer
  have hoffered : a ∈ s.offeredFlags g request.text := by
    simpa [completeFlags] using ha
  obtain ⟨-, hused, f, hf, -⟩ := mem_offeredFlags.mp hoffered
  obtain ⟨hslot, haf⟩ := Grammar.mem_flagTable.mp hf
  have hmatch : g.matchFlag? a = some f := by
    unfold Grammar.matchFlag?
    rw [hdistinct.flag?_eq_some_iff.mpr ⟨hslot, haf⟩]
  obtain ⟨s₁, hclaim⟩ := (hs.withoutFlag id).claimGroup_of_not_used hslot haf hused
  have hstep : Step g s a (.flag (some f)) (s₁.withFlag f) :=
    .flag (hs.isOpen hreach.flagsOn) hreach.flagsOn hne hlook hreach.done hmatch hclaim
  refine ⟨f, s₁.withFlag f, ⟨hslot, haf, ?_⟩, hstep.feed_eq, hstep.role_eq⟩
  intro k hk hak
  exact hdistinct hk hslot hak haf

theorem offered_long_is_read :
    ∃ g s f s', listing.build = .ok g ∧
      feedAll g (start g) ["--tag", "x", "--js", "--al"] = .ok (.next s) ∧
      s.ReachesFlags g {} .empty flagRequest ∧ "--long" ∈ f.arg.aliases ∧
      s.feed g "--long" = .ok (.next s') ∧ s.role g "--long" = .flag (some f) := by
  obtain ⟨g, s, answer, hbuild, hrun, hdone, hon, hlook, hanswer, ha, hlong⟩ :
      ∃ g s answer, listing.build = .ok g ∧
        feedAll g (start g) ["--tag", "x", "--js", "--al"] = .ok (.next s) ∧
        s.checkFlag = .ok () ∧ s.flagsOff = false ∧ g.looksLikeFlag "--" = true ∧
        s.complete g {} .empty flagRequest = .ok answer ∧
        answer.completions.values = ["--tag", "--long"] ∧ g.looksLikeFlag "--long" = true :=
    ⟨_, _, _, rfl, rfl, rfl, rfl, rfl, rfl, rfl, rfl⟩
  have hreach : s.ReachesFlags g {} .empty flagRequest := ⟨hdone, hon, Or.inl hlook⟩
  have hoffered : "--long" ∈ answer.completions.values := by simp [ha]
  obtain ⟨f, s', ⟨-, hf, -⟩, hfeed, hrole⟩ :=
    offered_flag_is_read hbuild hrun hreach hanswer hoffered hlong (by decide)
  exact ⟨g, s, f, s', hbuild, hrun, hreach, hf, hfeed, hrole⟩

end Replay

end TabCompletion
