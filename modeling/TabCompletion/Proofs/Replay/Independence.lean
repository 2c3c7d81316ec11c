import TabCompletion.Proofs.Replay.Conservation
import TabCompletion.Proofs.Replay.Unfinished

/-!
# Words that do not depend on each other

A flag with all its values (`Grammar.Occurs`) brings the flag into use and changes the values of its
destination (`GivesFlag`); a word for a positional does as much for the positional (`GivesWord`). Two
such changes commute if they are about different destinations and different exclusive groups
(`GivesFlag.commute`, `GivesFlag.commute_word`), up to an order that nothing depends on
(`SameUpToOrder`).

Main statement: `independent_occurrences_commute`.
-/

namespace TabCompletion

variable {g : Grammar} {f m : Slot} {word : String} {vs : List String}

/-- Whether an argument shuts out another one, which is in the same exclusive group. -/
def Slot.excludes (f m : Slot) : Bool :=
  m.index != f.index && f.arg.group.isSome && m.arg.group == f.arg.group

theorem Slot.excludes_iff :
    f.excludes m = true ↔
      m.index ≠ f.index ∧ ∃ group, f.arg.group = some group ∧ m.arg.group = some group := by
  rw [excludes, Bool.and_eq_true, Bool.and_eq_true, bne_iff_ne, beq_iff_eq,
    Option.isSome_iff_exists, and_assoc]
  refine and_congr_right fun _ => ⟨?_, ?_⟩
  · rintro ⟨⟨group, hgroup⟩, hsame⟩
    exact ⟨group, hgroup, hsame.trans hgroup⟩
  · rintro ⟨group, hf, hm⟩
    exact ⟨⟨group, hf⟩, hm.trans hf.symm⟩

theorem Slot.excludes_of_ungrouped (h : f.arg.group = none) : f.excludes m = false := by
  simp [excludes, h]

/-- A word names the flag `f`, and values follow, as many as the flag takes. -/
structure Grammar.Occurs (g : Grammar) (f : Slot) (word : String) (vs : List String) : Prop where
  notEnd : word ≠ endOfOptions
  looksLikeFlag : g.looksLikeFlag word = true
  named : g.matchFlag? word = some f
  exact : f.arg.arity = .exactly vs.length
  values : ∀ v ∈ vs, ¬ g.IsBoundary v

namespace Replay

variable {s s₁ s₂ t u v : Replay} {p q : Progress} {a b : Slot} {us words more : List String}
  {other w : String} {e : Interruption}

/-- The states are the same but for the order in which destinations were first used, spellings were
withdrawn and groups were taken. -/
structure SameUpToOrder (s t : Replay) : Prop where
  pending : s.pending = t.pending
  flagsOff : s.flagsOff = t.flagsOff
  positional : s.positional = t.positional
  flag : s.flag = t.flag
  used : ∀ a, a ∈ s.used ↔ a ∈ t.used
  values : s.values.entries.Perm t.values.entries
  claimed : ∀ group, s.claimed.lookup group = t.claimed.lookup group

theorem SameUpToOrder.refl (s : Replay) : s.SameUpToOrder s :=
  ⟨rfl, rfl, rfl, rfl, fun _ => Iff.rfl, List.Perm.refl _, fun _ => rfl⟩

/-! ## Taking a group -/

/-- No other member of the argument's exclusive group took it. -/
def Admits (s : Replay) (f : Slot) : Prop :=
  ∀ group c, f.arg.group = some group → s.claimed.lookup group = some c → c = f

theorem Coherent.admits_iff (h : Coherent g s) (hf : f ∈ g.slots) :
    s.Admits f ↔ ∃ s₁, s.claimGroup g f = .ok s₁ := by
  constructor
  · intro hadmits
    exact exists_claimGroup fun hgroup hc => hadmits _ _ hgroup hc
  · rintro ⟨s₁, hclaim⟩ group c hgroup hc
    exact h.claimGroup_free hf hclaim hgroup hc

/-- **Taking a group removes the rivals from the pending positionals**, now or when it was taken
first. -/
theorem Coherent.claimGroup_pending (h : Coherent g s) (hf : f ∈ g.slots)
    (hclaim : s.claimGroup g f = .ok s₁) :
    s₁.pending = s.pending.filter fun m => !f.excludes m := by
  have hslots : ∀ m ∈ s.pending, m ∈ g.slots ∧ m.arg.isFlag = false := fun m hm =>
    Grammar.mem_positionals.mp (h.pending.subset hm)
  rcases claimGroup_eq_ok.mp hclaim with ⟨rfl, -⟩ | ⟨group, hgroup, -, rfl⟩
  · have howns := (h.claimGroup hf hclaim).2
    symm
    rw [List.filter_eq_self]
    intro m hm
    rw [Bool.not_eq_true', ← Bool.not_eq_true, Slot.excludes_iff]
    rintro ⟨hindex, group, hgroup, hmgroup⟩
    have hmember := Grammar.mem_groupMembers.mpr ⟨(hslots m hm).1, hmgroup⟩
    have hne : m ≠ f := fun hmf => hindex (congrArg Slot.index hmf)
    exact (h.taken (howns group hgroup)).pending m hmember hne hm
  · apply List.filter_congr
    intro m hm
    obtain ⟨hslot, hpositional⟩ := hslots m hm
    congr 1
    rw [Bool.eq_iff_iff, Slot.excludes_iff, List.any_eq_true]
    simp only [List.mem_filter, bne_iff_ne, Bool.and_eq_true, Bool.not_eq_true', beq_iff_eq]
    constructor
    · rintro ⟨c, ⟨hc, hindex⟩, -, hcm⟩
      obtain rfl := Grammar.slot_eq_of_index_eq (Grammar.mem_groupMembers.mp hc).1 hslot hcm
      exact ⟨hindex, group, hgroup, (Grammar.mem_groupMembers.mp hc).2⟩
    · rintro ⟨hindex, k, hk, hmk⟩
      obtain rfl : group = k := by simpa [hgroup] using hk
      exact ⟨m, ⟨Grammar.mem_groupMembers.mpr ⟨hslot, hmk⟩, hindex⟩, hpositional, rfl⟩

/-! ## A flag with its values -/

/-- Between two states the flag `f` was given with its values. -/
structure GivesFlag (g : Grammar) (s : Replay) (f : Slot) (vs : List String) (t : Replay) : Prop where
  joins : Joins g s f t
  pending : t.pending = s.pending.filter fun m => !f.excludes m
  flagsOff : t.flagsOff = s.flagsOff
  positional : t.positional = s.positional
  flag : t.flag = s.flag
  values : ∀ dest, t.values.get? dest =
    if dest = f.arg.dest then
      some ((if f.arg.isReusable then (s.values.get? dest).getD [] else []) ++ vs)
    else s.values.get? dest

theorem get?_valuesAtFlag {dest : String} :
    (s.valuesAtFlag f).get? dest =
      if dest = f.arg.dest then
        some (if f.arg.isReusable then (s.values.get? dest).getD [] else [])
      else s.values.get? dest := by
  unfold valuesAtFlag
  by_cases hd : dest = f.arg.dest
  · subst hd
    cases f.arg.isReusable <;> simp
  · cases f.arg.isReusable <;> simp [hd]

/-- The values that follow a flag are read after it. -/
theorem feedAll_withFlag (hs₁ : Coherent g (s₁.withFlag f)) (hoff : s₁.flagsOff = false)
    (hflag : s₁.flag = none) (ho : g.Occurs f word vs) :
    feedAll g (s₁.withFlag f) vs = .ok (.next
      { s₁.withFlag f with
        flag := none
        flagsOff := false
        values := (s₁.valuesAtFlag f).pushAll f.arg.dest vs }) := by
  have hmax : f.arg.arity.max = some vs.length := by rw [ho.exact]; rfl
  have hremainder : f.arg.isRemainder = false := by
    by_contra hr
    rw [ArgDef.max_of_isRemainder (by simpa using hr)] at hmax
    contradiction
  by_cases hnone : f.arg.arity.takesNoValues = true
  · -- The flag takes no value, so none follows.
    have hlength : vs.length = 0 := by simpa [Arity.takesNoValues, hmax] using hnone
    obtain rfl := List.eq_nil_of_length_eq_zero hlength
    rw [feedAll, withFlag_eq]
    simp [hnone, hoff, hflag]
  · have hactive : (s₁.withFlag f).flag = some { slot := f } := by
      rw [withFlag_eq]
      exact if_neg hnone
    have hon : (s₁.withFlag f).flagsOff = false := by
      rw [withFlag_eq]
      exact (if_neg hnone).trans hremainder
    have hroom : Progress.HasRoom { slot := f } vs.length := by
      intro most hmost
      have hmost : f.arg.arity.max = some most := hmost
      rw [hmax, Option.some.injEq] at hmost
      show 0 + vs.length ≤ most
      omega
    have hfull : (({ slot := f } : Progress).advanceBy vs.length).isFull = true := by
      rw [Progress.isFull_eq_true]
      exact ⟨vs.length, hmax, Nat.le_add_left _ _⟩
    rw [feedAll_flagValues (hs₁.isOpen hon) hactive (hs₁.flag hactive).room ho.values hroom,
      if_pos hfull, withFlag_eq]
    simp [hnone, hremainder]

theorem withoutFlag_eq (hf : s.flag = none) : ({ s with flag := none } : Replay) = s := by
  rw [← hf]

/-- **A flag that is let into its group is given with its values.** -/
theorem Coherent.feedAll_givesFlag (h : Coherent g s) (hon : s.flagsOff = false)
    (hf : s.flag = none) (ho : g.Occurs f word vs) (hadmits : s.Admits f) :
    ∃ t, feedAll g s (word :: vs) = .ok (.next t) ∧ GivesFlag g s f vs t := by
  have hmem := (Grammar.matchFlag?_mem ho.named).1
  obtain ⟨s₁, hclaim⟩ := (h.admits_iff hmem).mp hadmits
  have hn := claimGroup_narrows hclaim
  have hdone : s.checkFlag = .ok () := checkFlag_eq_ok.mpr (by simp [hf])
  have hstep : Step g s word (.flag (some f)) (s₁.withFlag f) :=
    .flag (h.isOpen hon) hon ho.notEnd ho.looksLikeFlag hdone ho.named
      ((withoutFlag_eq hf).symm ▸ hclaim)
  have hrun := feedAll_withFlag (h.step hstep) (hn.flagsOff.trans hon) (hn.flag.trans hf) ho
  refine ⟨_, feedAll_cons_next.mpr ⟨_, _, hstep, hrun⟩, ?_⟩
  refine ⟨(h.joins_of_flag hmem hclaim).congr rfl rfl rfl rfl, ?_, hon.symm, ?_, hf.symm, ?_⟩
  · rw [withFlag_pending]
    exact h.claimGroup_pending hmem hclaim
  · rw [withFlag_positional]
    exact hn.positional
  · intro dest
    simp only [ArgTokens.get?_pushAll, get?_valuesAtFlag, hn.values]
    by_cases hd : dest = f.arg.dest
    · subst hd
      by_cases hvs : vs = [] <;> simp [hvs]
    · simp [hd]

/-- A flag whose group another member took is refused. -/
theorem Coherent.feedAll_refused (h : Coherent g s) (hon : s.flagsOff = false)
    (hf : s.flag = none) (ho : g.Occurs f word vs) (hadmits : ¬ s.Admits f) :
    ∃ e, feedAll g s (word :: vs) = .error e := by
  have hmem := (Grammar.matchFlag?_mem ho.named).1
  have hread := reading_of_looksLikeFlag (h.isOpen hon) hon ho.notEnd ho.looksLikeFlag
  have hdone : s.checkFlag = .ok () := checkFlag_eq_ok.mpr (by simp [hf])
  cases hclaim : s.claimGroup g f with
  | ok s₁ => exact absurd ((h.admits_iff hmem).mpr ⟨s₁, hclaim⟩) hadmits
  | error e =>
      have hfeed : s.feed g word = .error e := by
        simp only [feed, hread, hdone, withoutFlag_eq hf, feedFlag, ho.named, hclaim, Except.map]
      exact ⟨e, by rw [feedAll, hfeed]⟩

/-- A flag that was given does not decide whether one outside its group is let in. -/
theorem GivesFlag.admits_iff (h : GivesFlag g s a vs t)
    (hgroups : ∀ group, a.arg.group = some group → b.arg.group ≠ some group) :
    t.Admits b ↔ s.Admits b := by
  have hlookup : ∀ group, b.arg.group = some group →
      t.claimed.lookup group = s.claimed.lookup group := by
    intro group hb
    rw [h.joins.claimed, if_neg fun ha => hgroups group ha hb]
  constructor
  · intro hadmits group c hb hc
    exact hadmits group c hb ((hlookup group hb).trans hc)
  · intro hadmits group c hb hc
    exact hadmits group c hb ((hlookup group hb).symm.trans hc)

/-- **Flags of different destinations and groups are given in either order.** -/
theorem GivesFlag.commute (ha : GivesFlag g s a vs s₁) (hab : GivesFlag g s₁ b us u)
    (hb : GivesFlag g s b us s₂) (hba : GivesFlag g s₂ a vs v) (hdest : a.arg.dest ≠ b.arg.dest)
    (hgroups : ∀ group, a.arg.group = some group → b.arg.group ≠ some group)
    (hu : u.values.DestsDistinct) (hv : v.values.DestsDistinct) : u.SameUpToOrder v where
  pending := by
    rw [hab.pending, ha.pending, hba.pending, hb.pending, List.filter_filter, List.filter_filter]
    simp only [Bool.and_comm]
  flagsOff := by rw [hab.flagsOff, ha.flagsOff, hba.flagsOff, hb.flagsOff]
  positional := by rw [hab.positional, ha.positional, hba.positional, hb.positional]
  flag := by rw [hab.flag, ha.flag, hba.flag, hb.flag]
  used x := by rw [hab.joins.used, ha.joins.used, hba.joins.used, hb.joins.used, or_right_comm]
  values := by
    apply ArgTokens.entries_perm hu hv
    intro dest
    rw [hab.values, ha.values, hba.values, hb.values]
    by_cases hda : dest = a.arg.dest
    · have hdb : dest ≠ b.arg.dest := hda ▸ hdest
      simp only [if_pos hda, if_neg hdb]
    · simp only [if_neg hda]
  claimed group := by
    rw [hab.joins.claimed, ha.joins.claimed, hba.joins.claimed, hb.joins.claimed]
    by_cases hga : a.arg.group = some group
    · simp only [if_pos hga, if_neg (hgroups group hga)]
    · simp only [if_neg hga]

/-! ## A word for a positional -/

/-- Between two states a word was given to the positional `p`. -/
structure GivesWord (g : Grammar) (s : Replay) (p : Progress) (w : String) (t : Replay) : Prop where
  joins : Joins g s p.slot t
  receives : s.Receives p w t
  pending : t.pending =
    (if s.positional.isSome then s.pending else s.pending.tail).filter fun m => !p.slot.excludes m
  flagsOff : t.flagsOff =
    (s.flagsOff || p.isRemainder || p.advance.isFull && t.pending.head?.any (·.arg.isRemainder))

/-- Where flags are read and none is active, a word that is a value is given to a positional. -/
theorem Step.givesWord (h : Coherent g s) (hon : s.flagsOff = false) (hf : s.flag = none)
    (hstep : Step g s w (.value m) t) : ∃ p, s.receiver = some p ∧ GivesWord g s p w t := by
  have hjoins : (Role.value m).entrant? = some m → Joins g s m t := hstep.joins h
  obtain ⟨q, hq, -, hreceives⟩ := hstep.receives h
  cases hstep with
  | remainderValue hp hr =>
      rw [((h.positional hp).remainder hr).1] at hon
      contradiction
  | remainderFlagValue ho hflag | flagValue ho hv hflag =>
      rw [hf] at hflag
      contradiction
  | @activeValue p s₁ ho hv hf hp hclaim =>
      have hmem := (h.positional hp).mem
      have hn := claimGroup_narrows hclaim
      have hr := receiver_of_positional hf hp
      obtain rfl : q = p := by simpa [hq] using hr
      refine ⟨q, hq, hjoins (Role.entrant?_of_positional hmem), hreceives, ?_, ?_⟩
      · rw [withPositionalValue_pending, hp]
        exact h.claimGroup_pending (Grammar.mem_positionals.mp hmem).1 hclaim
      · rw [withPositionalValue_eq, hn.flagsOff]
  | nextValue ho hv hf hp hpending hsub hclaim =>
      have hmem := h.next_mem hpending
      have hn := claimGroup_narrows hclaim
      have hr := receiver_of_pending hf hp hpending
      obtain rfl : q = { slot := m } := by simpa [hq] using hr
      refine ⟨_, hq, hjoins (Role.entrant?_of_positional hmem), hreceives, ?_, ?_⟩
      · rw [withPositionalValue_pending, hp, hpending]
        exact (h.withoutNext hpending).claimGroup_pending (Grammar.mem_positionals.mp hmem).1 hclaim
      · rw [withPositionalValue_eq, hn.flagsOff]

theorem GivesFlag.pending_of_ungrouped (h : GivesFlag g s a vs t) (hgroup : a.arg.group = none) :
    t.pending = s.pending := by
  rw [h.pending, List.filter_eq_self]
  intro m hm
  rw [Slot.excludes_of_ungrouped hgroup, Bool.not_false]

/-- A flag that excludes nothing does not decide whose turn it is. -/
theorem GivesFlag.receiver_eq (h : GivesFlag g s a vs t) (hgroup : a.arg.group = none) :
    t.receiver = s.receiver := by
  simp only [receiver, nextPositional, h.flag, h.positional, h.pending_of_ungrouped hgroup]

/-- **A flag that excludes nothing and a word under another destination are given in either order.** -/
theorem GivesFlag.commute_word (ha : GivesFlag g s a vs s₁) (hap : GivesWord g s₁ p w u)
    (hp : GivesWord g s p w s₂) (hpa : GivesFlag g s₂ a vs v)
    (hgroup : a.arg.group = none) (hdest : p.arg.dest ≠ a.arg.dest)
    (hu : u.values.DestsDistinct) (hv : v.values.DestsDistinct) : u.SameUpToOrder v := by
  have hpending : u.pending = s₂.pending := by
    rw [hap.pending, hp.pending, ha.pending_of_ungrouped hgroup, ha.positional]
  constructor
  case pending => rw [hpending, hpa.pending_of_ungrouped hgroup]
  case flagsOff => rw [hap.flagsOff, hpa.flagsOff, hp.flagsOff, ha.flagsOff, hpending]
  case positional =>
    rw [hap.receives.positional, hpa.positional, hp.receives.positional, ha.flag, ha.positional]
  case flag => rw [hap.receives.flag, hpa.flag, hp.receives.flag, ha.flag]
  case used =>
    intro x
    rw [hap.joins.used, ha.joins.used, hpa.joins.used, hp.joins.used, or_right_comm]
  case values =>
    apply ArgTokens.entries_perm hu hv
    intro dest
    rw [hap.receives.values, hpa.values, hp.receives.values, ArgTokens.get?_push,
      ArgTokens.get?_push, ha.values, ha.values]
    by_cases hdp : dest = p.arg.dest
    · have hda : dest ≠ a.arg.dest := hdp ▸ hdest
      simp only [if_pos hdp, if_neg hda, if_neg hdest]
    · simp only [if_neg hdp]
  case claimed =>
    intro group
    rw [hap.joins.claimed, ha.joins.claimed, hpa.joins.claimed, hp.joins.claimed, hgroup]
    simp

/-! ## Either order -/

/-- A flag that is refused is refused after another one, too, whose group is not its own. -/
theorem Coherent.refused_in_either_order (h : Coherent g s) (hon : s.flagsOff = false)
    (hf : s.flag = none) (ha : g.Occurs a word vs) (hb : g.Occurs b other us)
    (hgroups : ∀ group, b.arg.group = some group → a.arg.group ≠ some group)
    (hrefused : ¬ s.Admits a) :
    (∃ e, feedAll g s (word :: vs ++ other :: us) = .error e) ∧
      ∃ e, feedAll g s (other :: us ++ word :: vs) = .error e := by
  obtain ⟨e, he⟩ := h.feedAll_refused hon hf ha hrefused
  refine ⟨⟨e, feedAll_append_of_error he⟩, ?_⟩
  by_cases hadmits : s.Admits b
  · obtain ⟨t, hrun, ht⟩ := h.feedAll_givesFlag hon hf hb hadmits
    rw [feedAll_append hrun]
    apply (feedAll_invariant Coherent.step h hrun).feedAll_refused (ht.flagsOff.trans hon)
      (ht.flag.trans hf) ha
    rw [ht.admits_iff hgroups]
    exact hrefused
  · obtain ⟨e', he'⟩ := h.feedAll_refused hon hf hb hadmits
    exact ⟨e', feedAll_append_of_error he'⟩

/-- Where two flags are let in they are given in either order. -/
theorem Coherent.given_in_either_order (h : Coherent g s) (hvalues : s.values.DestsDistinct)
    (hon : s.flagsOff = false) (hf : s.flag = none) (ha : g.Occurs a word vs)
    (hb : g.Occurs b other us) (hdest : a.arg.dest ≠ b.arg.dest)
    (hgroups : ∀ group, a.arg.group = some group → b.arg.group ≠ some group)
    (haadmits : s.Admits a) (hbadmits : s.Admits b) :
    ∃ u v, feedAll g s (word :: vs ++ other :: us) = .ok (.next u) ∧
      feedAll g s (other :: us ++ word :: vs) = .ok (.next v) ∧ u.SameUpToOrder v := by
  have hgroups' : ∀ group, b.arg.group = some group → a.arg.group ≠ some group :=
    fun group hbg hag => hgroups group hag hbg
  obtain ⟨s₁, hrun₁, h₁⟩ := h.feedAll_givesFlag hon hf ha haadmits
  obtain ⟨s₂, hrun₂, h₂⟩ := h.feedAll_givesFlag hon hf hb hbadmits
  obtain ⟨u, hrunu, hu⟩ := (feedAll_invariant Coherent.step h hrun₁).feedAll_givesFlag
    (h₁.flagsOff.trans hon) (h₁.flag.trans hf) hb ((h₁.admits_iff hgroups).mpr hbadmits)
  obtain ⟨v, hrunv, hv⟩ := (feedAll_invariant Coherent.step h hrun₂).feedAll_givesFlag
    (h₂.flagsOff.trans hon) (h₂.flag.trans hf) ha ((h₂.admits_iff hgroups').mpr haadmits)
  rw [← feedAll_append hrun₁] at hrunu
  rw [← feedAll_append hrun₂] at hrunv
  refine ⟨u, v, hrunu, hrunv, h₁.commute hu h₂ hv hdest hgroups ?_ ?_⟩
  · exact feedAll_invariant Step.destsDistinct hvalues hrunu
  · exact feedAll_invariant Step.destsDistinct hvalues hrunv

/-- A word that is passed over where flags are read makes no difference. -/
theorem feed_of_receiver_eq_none (hw : ¬ g.IsBoundary w) (hr : s.receiver = none) :
    s.feed g w = .ok (.next s) := by
  obtain ⟨hf, hp, hpending⟩ := receiver_eq_none.mp hr
  have ho : s.IsOpen := ⟨by simp [PositionalOpen, hp], by simp [hf]⟩
  exact (Step.passedOver ho (readsValue_of_not_isBoundary hw) hf hp hpending).feed_eq

/-- A word for a positional is given to it. -/
theorem Coherent.feed_givesWord (h : Coherent g s) (hon : s.flagsOff = false) (hf : s.flag = none)
    (hw : ¬ g.IsBoundary w) (hr : s.receiver = some p) (hsub : p.arg.subcommands? = none) :
    ∃ t, s.feed g w = .ok (.next t) ∧ GivesWord g s p w t ∧ s.role g w = .value p.slot := by
  have ht : s.target g w ≠ .flags := target_ne_flags_of_not_isBoundary hw
  obtain ⟨t, hstep⟩ := h.exists_valueStep (notEnd_of_not_isBoundary hw) ht hr hsub
  obtain ⟨q, hq, hgives⟩ := hstep.givesWord h hon hf
  obtain rfl : p = q := by simpa [hr] using hq
  exact ⟨t, hstep.feed_eq, hgives, hstep.role_eq⟩

theorem admits_of_ungrouped (hgroup : a.arg.group = none) : s.Admits a := by
  intro group c hag
  rw [hgroup] at hag
  contradiction

/-- A word that is read as a value of another destination is read before the flag or after it. -/
theorem Coherent.word_in_either_order (h : Coherent g s) (hvalues : s.values.DestsDistinct)
    (hon : s.flagsOff = false) (hf : s.flag = none) (ha : g.Occurs a word vs)
    (hgroup : a.arg.group = none) (hw : ¬ g.IsBoundary w) (hfeed : s.feed g w = .ok (.next t))
    (hton : t.flagsOff = false)
    (hdest : ∀ slot, s.role g w = .value slot → slot.arg.dest ≠ a.arg.dest) :
    ∃ u v, feedAll g s (word :: vs ++ [w]) = .ok (.next u) ∧
      feedAll g s (w :: word :: vs) = .ok (.next v) ∧ u.SameUpToOrder v := by
  obtain ⟨s₁, hrun₁, h₁⟩ := h.feedAll_givesFlag hon hf ha (admits_of_ungrouped hgroup)
  have hs₁ : Coherent g s₁ := feedAll_invariant Coherent.step h hrun₁
  have hr₁ := h₁.receiver_eq hgroup
  rw [feedAll_append hrun₁, feedAll_singleton, feedAll, hfeed]
  cases hr : s.receiver with
  | none =>
      -- The word is passed over, before the flag and after it.
      rw [feed_of_receiver_eq_none hw hr] at hfeed
      cases hfeed
      rw [feed_of_receiver_eq_none hw (hr₁.trans hr)]
      exact ⟨s₁, s₁, rfl, hrun₁, SameUpToOrder.refl s₁⟩
  | some p =>
      cases hsub : p.arg.subcommands? with
      | some subs =>
          rw [h.feed_of_dispatch (notEnd_of_not_isBoundary hw)
            (target_ne_flags_of_not_isBoundary hw) hr hsub] at hfeed
          cases hlookup : subs.lookup w <;> simp [hlookup] at hfeed
      | none =>
          obtain ⟨t', hfeed', hgives, hrole⟩ := h.feed_givesWord hon hf hw hr hsub
          obtain rfl : t = t' := by simpa [hfeed] using hfeed'
          obtain ⟨u, hfeedu, hgivesu, -⟩ := hs₁.feed_givesWord (h₁.flagsOff.trans hon)
            (h₁.flag.trans hf) hw (hr₁.trans hr) hsub
          obtain ⟨r, hstep⟩ := feed_next_iff.mp hfeed
          obtain ⟨r', hstepu⟩ := feed_next_iff.mp hfeedu
          have htf : t.flag = none := by rw [hgives.receives.flag, hf]; rfl
          obtain ⟨v, hrunv, hv⟩ :=
            (h.step hstep).feedAll_givesFlag hton htf ha (admits_of_ungrouped hgroup)
          have hd₁ := feedAll_invariant Step.destsDistinct hvalues hrun₁
          have hdt := hstep.destsDistinct hvalues
          rw [hfeedu]
          refine ⟨u, v, rfl, hrunv, h₁.commute_word hgivesu hgives hv hgroup (hdest _ hrole) ?_ ?_⟩
          · exact hstepu.destsDistinct hd₁
          · exact feedAll_invariant Step.destsDistinct hdt hrunv

/-- A word that names no subcommand is refused before a flag and after it. -/
theorem Coherent.word_refused_in_either_order (h : Coherent g s) (hon : s.flagsOff = false)
    (hf : s.flag = none) (ha : g.Occurs a word vs) (hgroup : a.arg.group = none)
    (hw : ¬ g.IsBoundary w) (hfeed : s.feed g w = .error e) :
    feedAll g s (word :: vs ++ [w]) = .error e ∧ feedAll g s (w :: word :: vs) = .error e := by
  obtain ⟨s₁, hrun₁, h₁⟩ := h.feedAll_givesFlag hon hf ha (admits_of_ungrouped hgroup)
  have hs₁ : Coherent g s₁ := feedAll_invariant Coherent.step h hrun₁
  have hr₁ := h₁.receiver_eq hgroup
  suffices hsame : s₁.feed g w = .error e by
    rw [feedAll_append hrun₁, feedAll_singleton, feedAll, hfeed]
    exact ⟨hsame, rfl⟩
  cases hr : s.receiver with
  | none =>
      rw [feed_of_receiver_eq_none hw hr] at hfeed
      contradiction
  | some p =>
      cases hsub : p.arg.subcommands? with
      | none =>
          obtain ⟨t, hfeed', -⟩ := h.feed_givesWord hon hf hw hr hsub
          rw [hfeed'] at hfeed
          contradiction
      | some subs =>
          have hend := notEnd_of_not_isBoundary hw
          rw [hs₁.feed_of_dispatch hend (target_ne_flags_of_not_isBoundary hw) (hr₁.trans hr) hsub]
          rw [h.feed_of_dispatch hend (target_ne_flags_of_not_isBoundary hw) hr hsub] at hfeed
          exact hfeed

/-- **Independent occurrences commute.** In the state after a run, where flags are read and none is
active, let a flag with all its values come. Another flag with all its values, under another
destination and not in the same exclusive group, may come before it or after it: in both orders a flag
is refused, or both lead to the same state up to order. If the flag excludes nothing, the same holds of
a word that is no boundary, hands over to no subcommand, leaves flags on and, if it is a value, is one
under another destination; a word that is refused is refused in both orders. -/
theorem independent_occurrences_commute (hrun : feedAll g (start g) words = .ok (.next s))
    (hon : s.flagsOff = false) (hf : s.flag = none) (ha : g.Occurs a word vs) :
    (∀ b other us, g.Occurs b other us → a.arg.dest ≠ b.arg.dest →
      (∀ group, a.arg.group = some group → b.arg.group ≠ some group) →
      ((∃ e, feedAll g s (word :: vs ++ other :: us) = .error e) ∧
        ∃ e, feedAll g s (other :: us ++ word :: vs) = .error e) ∨
      ∃ u v, feedAll g s (word :: vs ++ other :: us) = .ok (.next u) ∧
        feedAll g s (other :: us ++ word :: vs) = .ok (.next v) ∧ u.SameUpToOrder v) ∧
    (a.arg.group = none → ∀ w, ¬ g.IsBoundary w →
      (∀ t, s.feed g w = .ok (.next t) → t.flagsOff = false →
        (∀ slot, s.role g w = .value slot → slot.arg.dest ≠ a.arg.dest) →
        ∃ u v, feedAll g s (word :: vs ++ [w]) = .ok (.next u) ∧
          feedAll g s (w :: word :: vs) = .ok (.next v) ∧ u.SameUpToOrder v) ∧
      ∀ e, s.feed g w = .error e →
        feedAll g s (word :: vs ++ [w]) = .error e ∧ feedAll g s (w :: word :: vs) = .error e) := by
  have hs := feedAll_coherent hrun
  have hvalues : s.values.DestsDistinct :=
    feedAll_invariant Step.destsDistinct ArgTokens.empty_destsDistinct hrun
  refine ⟨?_, ?_⟩
  · intro b other us hb hdest hgroups
    have hgroups' : ∀ group, b.arg.group = some group → a.arg.group ≠ some group :=
      fun group hbg hag => hgroups group hag hbg
    by_cases haadmits : s.Admits a
    · by_cases hbadmits : s.Admits b
      · exact Or.inr (hs.given_in_either_order hvalues hon hf ha hb hdest hgroups haadmits hbadmits)
      · exact Or.inl (hs.refused_in_either_order hon hf hb ha hgroups hbadmits).symm
    · exact Or.inl (hs.refused_in_either_order hon hf ha hb hgroups' haadmits)
  · intro hgroup w hw
    refine ⟨?_, ?_⟩
    · intro t hfeed hton hdest
      exact hs.word_in_either_order hvalues hon hf ha hgroup hw hfeed hton hdest
    · intro e hfeed
      exact hs.word_refused_in_either_order hon hf ha hgroup hw hfeed

/-- A command with an owner, a pair that excludes being quiet, and names. -/
def owning : GrammarSpec :=
  { prog := "cmd"
    items :=
      [.arg { aliases := ["--owner"] },
        .exclusive false
          [{ aliases := ["--pair"], nargs := some (.exactly 2) },
            { aliases := ["--quiet"], action := .storeTrue }],
        .arg { name := some "names", nargs := some .zeroOrMore }] }

theorem owner_before_or_after_pair :
    ∃ g s u v x y, owning.build = .ok g ∧ feedAll g (start g) ["n"] = .ok (.next s) ∧
      feedAll g s ["--owner", "me", "--pair", "1", "2"] = .ok (.next u) ∧
      feedAll g s ["--pair", "1", "2", "--owner", "me"] = .ok (.next v) ∧ u.SameUpToOrder v ∧
      feedAll g s ["--owner", "me", "m"] = .ok (.next x) ∧
      feedAll g s ["m", "--owner", "me"] = .ok (.next y) ∧ x.SameUpToOrder y := by
  obtain ⟨g, s, owner, pair, names, u, t, hbuild, hrun, hon, hf, howner, hpair, hownerArity,
      hpairArity, hownerDest, hpairDest, hnamesDest, hgroup, hlook, hfirst, hfeed, hton, hrole⟩ :
      ∃ g s owner pair names u t, owning.build = .ok g ∧
        feedAll g (start g) ["n"] = .ok (.next s) ∧ s.flagsOff = false ∧ s.flag = none ∧
        g.matchFlag? "--owner" = some owner ∧ g.matchFlag? "--pair" = some pair ∧
        owner.arg.arity = .exactly 1 ∧ pair.arg.arity = .exactly 2 ∧ owner.arg.dest = "owner" ∧
        pair.arg.dest = "pair" ∧ names.arg.dest = "names" ∧ owner.arg.group = none ∧
        ["--owner", "--pair", "me", "1", "2", "m"].map g.looksLikeFlag =
          [true, true, false, false, false, false] ∧
        feedAll g s ["--owner", "me", "--pair", "1", "2"] = .ok (.next u) ∧
        s.feed g "m" = .ok (.next t) ∧ t.flagsOff = false ∧ s.role g "m" = .value names :=
    ⟨_, _, _, _, _, _, _, rfl, rfl, rfl, rfl, rfl, rfl, rfl, rfl, rfl, rfl, rfl, rfl, rfl, rfl, rfl,
      rfl, rfl⟩
  simp only [List.map_cons, List.map_nil, List.cons.injEq, and_true] at hlook
  obtain ⟨hownerLook, hpairLook, hme, hone, htwo, hm⟩ := hlook
  have hplain : ∀ w ∈ ["me", "1", "2", "m"], ¬ g.IsBoundary w := by
    intro w hw
    simp only [List.mem_cons, List.not_mem_nil, or_false] at hw
    rcases hw with rfl | rfl | rfl | rfl <;> simp [Grammar.IsBoundary, endOfOptions, *]
  have hownerOccurs : g.Occurs owner "--owner" ["me"] :=
    ⟨by decide, hownerLook, howner, hownerArity, by simpa using hplain "me" (by simp)⟩
  have hpairOccurs : g.Occurs pair "--pair" ["1", "2"] :=
    ⟨by decide, hpairLook, hpair, hpairArity,
      by simpa using ⟨hplain "1" (by simp), hplain "2" (by simp)⟩⟩
  obtain ⟨hflags, hword⟩ := independent_occurrences_commute hrun hon hf hownerOccurs
  have hdest : owner.arg.dest ≠ pair.arg.dest := by
    rw [hownerDest, hpairDest]
    decide
  have hgroups : ∀ group, owner.arg.group = some group → pair.arg.group ≠ some group := by
    simp [hgroup]
  obtain ⟨x, y, hx, hy, hxy⟩ := (hword hgroup "m" (hplain "m" (by simp))).1 t hfeed hton (by
    intro slot hslot
    rw [hrole] at hslot
    cases hslot
    rw [hnamesDest, hownerDest]
    decide)
  rcases hflags pair "--pair" ["1", "2"] hpairOccurs hdest hgroups with
    ⟨⟨e, he⟩, -⟩ | ⟨u', v, hu, hv, huv⟩
  · have hboth : Except.ok (Fed.next u) = .error e := hfirst.symm.trans he
    contradiction
  · exact ⟨g, s, u', v, x, y, hbuild, hrun, hu, hv, huv, hx, hy, hxy⟩

end Replay

end TabCompletion
