import TabCompletion.Proofs.Replay.Coherent

/-!
# What the words turned out to be

`roles` lists what the words of a run turned out to be, `entrants` the arguments that came into use
on the way. A state forgets the words, but not what matters of them: which exclusive groups are
taken and which spellings are no longer offered is decided by the entrants alone
(`feedAll_recorded`).
-/

namespace TabCompletion

/-- The argument that a word brings into use: the flag that it names, or the positional that it is a
value of. A value of a flag brings nothing into use that its flag did not. -/
def Role.entrant? : Role → Option Slot
  | .flag slot? => slot?
  | .value slot => if slot.arg.isFlag then none else some slot
  | .endOfOptions => none
  | .passedOver => none

/-- The arguments that came into use, one after the other. -/
def entrants (rs : List Role) : List Slot := rs.filterMap Role.entrant?

namespace Grammar

/-- Two different members of one exclusive group. -/
def Rivals (g : Grammar) (m f : Slot) : Prop :=
  m ≠ f ∧ ∃ group, m ∈ g.groupMembers group ∧ f ∈ g.groupMembers group

/-- The spellings that are no longer offered once `m` came into use: its own, if it is a flag that
is not to be repeated, and those of its rivals. -/
def Withdraws (g : Grammar) (m : Slot) (a : String) : Prop :=
  (m.arg.isReusable = false ∧ a ∈ m.arg.aliases) ∨ ∃ f, g.Rivals m f ∧ a ∈ f.arg.aliases

theorem Rivals.symm {g : Grammar} {m f : Slot} (h : g.Rivals m f) : g.Rivals f m := by
  obtain ⟨hne, group, hm, hf⟩ := h
  exact ⟨hne.symm, group, hf, hm⟩

end Grammar

@[simp] theorem entrants_append (rs ts : List Role) :
    entrants (rs ++ ts) = entrants rs ++ entrants ts := List.filterMap_append

theorem Role.entrant?_of_positional {g : Grammar} {slot : Slot} (h : slot ∈ g.positionals) :
    (Role.value slot).entrant? = some slot := by
  simp [entrant?, (Grammar.mem_positionals.mp h).2]

theorem Role.entrant?_of_flag {slot : Slot} (h : slot.arg.isFlag = true) :
    (Role.value slot).entrant? = none := by
  simp [entrant?, h]

/-- A flag comes into use only by a word that names it. -/
theorem mem_entrants_of_isFlag {rs : List Role} {f : Slot} (hf : f.arg.isFlag = true) :
    f ∈ entrants rs ↔ Role.flag (some f) ∈ rs := by
  rw [entrants, List.mem_filterMap]
  constructor
  · rintro ⟨r, hr, hentrant⟩
    cases r with
    | flag slot? =>
        cases hentrant
        exact hr
    | value slot =>
        simp only [Role.entrant?] at hentrant
        split at hentrant
        · contradiction
        · next hslot =>
            cases hentrant
            exact absurd hf hslot
    | endOfOptions => contradiction
    | passedOver => contradiction
  · intro h
    exact ⟨_, h, rfl⟩

namespace Replay

variable {g : Grammar} {s s' s₁ t t' : Replay} {word : String} {words : List String} {r : Role}
  {rs ts : List Role} {m f c : Slot} {group : Nat} {a : String}

/-! ## Roles -/

/-- What a word turns out to be in a state. -/
def role (g : Grammar) (s : Replay) (word : String) : Role :=
  match s.reading g word with
  | .remainderValue p => .value p.slot
  | .remainderFlagValue p => .value p.slot
  | .remainderFlagEnd => .endOfOptions
  | .endOfOptions => .endOfOptions
  | .flag => .flag (g.matchFlag? word)
  | .flagValue p => .value p.slot
  | .positional => s.nextPositional.elim .passedOver fun p => .value p.slot

/-- What the words turn out to be, one after the other, as far as they are read: up to one that
hands over to a subcommand or ends the request. -/
def roles (g : Grammar) : Replay → List String → List Role
  | _, [] => []
  | s, word :: words =>
    match s.feed g word with
    | .ok (.next s') => s.role g word :: roles g s' words
    | _ => []

/-- The state and the word determine the role. -/
theorem Step.role_eq (h : Step g s word r s') : s.role g word = r := by
  unfold role
  cases h with
  | remainderValue hp hr => rw [reading_of_positional hp hr]
  | remainderFlagValue ho hf hr hw => rw [reading_of_flag ho hf hr, if_neg hw]
  | remainderFlagEnd ho hf hr hw => rw [reading_of_flag ho hf hr, if_pos hw]
  | endOfOptions ho hoff hw hdone => rw [reading_of_endOfOptions ho hoff hw]
  | unknownFlag ho hoff hw hlook hdone hmatch =>
      rw [reading_of_looksLikeFlag ho hoff hw hlook]
      show Role.flag (g.matchFlag? word) = _
      rw [hmatch]
  | flag ho hoff hw hlook hdone hmatch hclaim =>
      rw [reading_of_looksLikeFlag ho hoff hw hlook]
      show Role.flag (g.matchFlag? word) = _
      rw [hmatch]
  | flagValue ho hv hf => rw [reading_of_readsValue ho hv, hf, Option.elim_some]
  | passedOver ho hv hf hp hpending =>
      rw [reading_of_readsValue ho hv, hf, Option.elim_none]
      simp only [nextPositional, hp, hpending, List.head?_nil, Option.map_none, Option.elim_none]
  | activeValue ho hv hf hp hclaim =>
      rw [reading_of_readsValue ho hv, hf, Option.elim_none]
      simp only [nextPositional, hp, Option.elim_some]
  | nextValue ho hv hf hp hpending hsub hclaim =>
      rw [reading_of_readsValue ho hv, hf, Option.elim_none]
      simp only [nextPositional, hp, hpending, List.head?_cons, Option.map_some, Option.elim_some]

/-- **What every step keeps of the roles so far and the state holds where reading ends**, whether
all words are read or not. -/
theorem roles_invariant {I : List Role → Replay → Prop}
    (hstep : ∀ {rs s word r s'}, I rs s → Step g s word r s' → I (rs ++ [r]) s') (hs : I rs s)
    (words : List String) :
    ∃ s', I (rs ++ roles g s words) s' ∧
      ∀ t, feedAll g s words = .ok (.next t) → t = s' := by
  induction words generalizing rs s with
  | nil =>
      refine ⟨s, by simpa [roles] using hs, ?_⟩
      intro t ht
      cases ht
      rfl
  | cons word words ih =>
      by_cases hnext : ∃ s₁, s.feed g word = .ok (.next s₁)
      · obtain ⟨s₁, hfeed⟩ := hnext
        obtain ⟨r, hfirst⟩ := feed_next_iff.mp hfeed
        obtain ⟨s', hs', hlast⟩ := ih (hstep hs hfirst)
        refine ⟨s', ?_, ?_⟩
        · simpa [roles, hfeed, hfirst.role_eq] using hs'
        · simpa [feedAll, hfeed] using hlast
      · have hstop : roles g s (word :: words) = [] := by
          rw [roles]
          split
          · next s₁ hfeed => exact absurd ⟨s₁, hfeed⟩ hnext
          · rfl
        refine ⟨s, by simpa [hstop] using hs, ?_⟩
        intro t ht
        obtain ⟨s₁, r, hfirst, -⟩ := feedAll_cons_next.mp ht
        exact absurd ⟨s₁, hfirst.feed_eq⟩ hnext

/-- **What every step keeps of the words so far, their roles and the state holds after every run.** -/
theorem feedAll_roles_invariant {I : List String → List Role → Replay → Prop} {ws : List String}
    (hstep : ∀ {ws rs s word r s'}, I ws rs s → Step g s word r s' → I (ws ++ [word]) (rs ++ [r]) s')
    (hs : I ws rs s) (h : feedAll g s words = .ok (.next s')) :
    I (ws ++ words) (rs ++ roles g s words) s' := by
  induction words generalizing s ws rs with
  | nil =>
      cases h
      simpa [roles] using hs
  | cons word words ih =>
      obtain ⟨s₁, r, hfirst, hrest⟩ := feedAll_cons_next.mp h
      have hlast := ih (hstep hs hfirst) hrest
      simpa [roles, hfirst.feed_eq, hfirst.role_eq] using hlast

/-! ## Coming into use -/

/-- The argument `m` comes into use between two states: its group is its own then, if it is in one,
and some spellings are withdrawn. -/
structure Joins (g : Grammar) (s : Replay) (m : Slot) (s' : Replay) : Prop where
  mem : m ∈ g.slots
  free : ∀ {group c}, m.arg.group = some group → s.claimed.lookup group = some c → c = m
  claimed : ∀ group, s'.claimed.lookup group =
    if m.arg.group = some group then some m else s.claimed.lookup group
  used : ∀ a, a ∈ s'.used ↔ a ∈ s.used ∨ g.Withdraws m a

/-- The parts of the state that tell who came into use are the same. -/
theorem Joins.congr (h : Joins g s m s') (hclaimed : t.claimed = s.claimed) (hused : t.used = s.used)
    (hclaimed' : t'.claimed = s'.claimed) (hused' : t'.used = s'.used) : Joins g t m t' where
  mem := h.mem
  free hg hc := h.free hg (hclaimed ▸ hc)
  claimed := by
    rw [hclaimed, hclaimed']
    exact h.claimed
  used := by
    rw [hused, hused']
    exact h.used

/-- Taking a group withdraws the spellings of the rivals, now or when it was taken first. -/
theorem Coherent.claimGroup_used (h : Coherent g s) (hm : m ∈ g.slots)
    (hclaim : s.claimGroup g m = .ok s₁) :
    a ∈ s₁.used ↔ a ∈ s.used ∨ ∃ f, g.Rivals m f ∧ a ∈ f.arg.aliases := by
  rcases claimGroup_eq_ok.mp hclaim with ⟨rfl, -⟩ | ⟨group, hgroup, -, rfl⟩
  · have howns := (h.claimGroup hm hclaim).2
    constructor
    · exact Or.inl
    · rintro (ha | ⟨f, ⟨hne, group, hmg, hfg⟩, ha⟩)
      · exact ha
      · have hclaimed := howns group (Grammar.mem_groupMembers.mp hmg).2
        exact (h.taken hclaimed).used f hfg hne.symm ha
  · rw [mem_withGroupTaken_used hm]
    refine or_congr_right ⟨?_, ?_⟩
    · rintro ⟨f, hfg, hne, ha⟩
      exact ⟨f, ⟨hne.symm, group, Grammar.mem_groupMembers.mpr ⟨hm, hgroup⟩, hfg⟩, ha⟩
    · rintro ⟨f, ⟨hne, k, hmk, hfk⟩, ha⟩
      have hk := (Grammar.mem_groupMembers.mp hmk).2
      rw [hgroup, Option.some.injEq] at hk
      exact ⟨f, hk ▸ hfk, hne.symm, ha⟩

theorem Coherent.claimGroup_claimed (h : Coherent g s) (hm : m ∈ g.slots)
    (hclaim : s.claimGroup g m = .ok s₁) (group : Nat) :
    s₁.claimed.lookup group =
      if m.arg.group = some group then some m else s.claimed.lookup group := by
  split
  · next hgroup => exact (h.claimGroup hm hclaim).2 group hgroup
  · next hgroup =>
      rcases claimGroup_eq_ok.mp hclaim with ⟨rfl, -⟩ | ⟨k, hk, -, rfl⟩
      · rfl
      · rw [withGroupTaken_claimed, if_neg]
        rintro rfl
        exact hgroup hk

theorem Coherent.claimGroup_free (h : Coherent g s) (hm : m ∈ g.slots)
    (hclaim : s.claimGroup g m = .ok s₁) (hgroup : m.arg.group = some group)
    (hc : s.claimed.lookup group = some c) : c = m := by
  rcases claimGroup_eq_ok.mp hclaim with ⟨rfl, -⟩ | ⟨k, hk, hfree, rfl⟩
  · have howns := (h.claimGroup hm hclaim).2 group hgroup
    rw [hc] at howns
    exact Option.some.inj howns
  · rw [hgroup, Option.some.injEq] at hk
    rw [hk, hfree] at hc
    contradiction

/-- A positional that takes its group comes into use. -/
theorem Coherent.joins_of_positional (h : Coherent g s) (hm : m ∈ g.positionals)
    (hclaim : s.claimGroup g m = .ok s₁) : Joins g s m s₁ := by
  obtain ⟨hslot, hflag⟩ := Grammar.mem_positionals.mp hm
  refine ⟨hslot, h.claimGroup_free hslot hclaim, h.claimGroup_claimed hslot hclaim, ?_⟩
  intro a
  have hnone : a ∉ m.arg.aliases := fun ha => by
    rw [ArgDef.isFlag_of_mem_aliases ha] at hflag
    contradiction
  rw [h.claimGroup_used hslot hclaim, Grammar.Withdraws]
  simp [hnone]

/-- A flag that takes its group and is met comes into use. -/
theorem Coherent.joins_of_flag (h : Coherent g s) (hm : m ∈ g.slots)
    (hclaim : s.claimGroup g m = .ok s₁) : Joins g s m (s₁.withFlag m) := by
  refine ⟨hm, h.claimGroup_free hm hclaim, ?_, ?_⟩
  · rw [withFlag_claimed]
    exact h.claimGroup_claimed hm hclaim
  · intro a
    rw [mem_withFlag_used, h.claimGroup_used hm hclaim, Grammar.Withdraws, or_assoc,
      or_comm (a := ∃ f, g.Rivals m f ∧ a ∈ f.arg.aliases)]

/-- **A step brings the argument into use that its word calls for.** -/
theorem Step.joins (h : Coherent g s) (hstep : Step g s word r s') (hm : r.entrant? = some m) :
    Joins g s m s' := by
  cases hstep with
  | @remainderValue p hp hr =>
      have hactive := h.positional hp
      rw [Role.entrant?_of_positional hactive.mem] at hm
      cases hm
      exact (h.joins_of_positional hactive.mem (claimGroup_of_owns hactive.owns)).congr rfl rfl rfl rfl
  | @remainderFlagValue p ho hf hr hw =>
      rw [Role.entrant?_of_flag (h.flag hf).isFlag] at hm
      contradiction
  | remainderFlagEnd | endOfOptions | unknownFlag | passedOver => contradiction
  | @flag slot s₁ ho hoff hw hlook hdone hmatch hclaim =>
      cases hm
      have hslot := (Grammar.matchFlag?_mem hmatch).1
      exact ((h.withoutFlag id).joins_of_flag hslot hclaim).congr rfl rfl rfl rfl
  | @flagValue p ho hv hf =>
      rw [Role.entrant?_of_flag (h.flag hf).isFlag] at hm
      contradiction
  | @activeValue p s₁ ho hv hf hp hclaim =>
      have hmem := (h.positional hp).mem
      rw [Role.entrant?_of_positional hmem] at hm
      cases hm
      exact (h.joins_of_positional hmem hclaim).congr rfl rfl (by simp) (by simp)
  | @nextValue slot rest s₁ ho hv hf hp hpending hsub hclaim =>
      have hmem := h.next_mem hpending
      rw [Role.entrant?_of_positional hmem] at hm
      cases hm
      exact ((h.withoutNext hpending).joins_of_positional hmem hclaim).congr rfl rfl (by simp) (by simp)

/-- A step whose word brings nothing into use takes no group and withdraws no spelling. -/
theorem Step.unchanged (h : Coherent g s) (hstep : Step g s word r s') (hr : r.entrant? = none) :
    s'.claimed = s.claimed ∧ s'.used = s.used := by
  cases hstep with
  | remainderValue | remainderFlagValue | remainderFlagEnd | endOfOptions | unknownFlag | flagValue
  | passedOver => exact ⟨rfl, rfl⟩
  | flag => contradiction
  | @activeValue p s₁ ho hv hf hp hclaim =>
      rw [Role.entrant?_of_positional (h.positional hp).mem] at hr
      contradiction
  | @nextValue slot rest s₁ ho hv hf hp hpending hsub hclaim =>
      have hmem := h.next_mem hpending
      rw [Role.entrant?_of_positional hmem] at hr
      contradiction

/-! ## The record of a run -/

/-- The state tells who came into use: the owner of a group is the one member of it that did, and
the spellings no longer offered are those that were withdrawn. -/
structure Recorded (g : Grammar) (rs : List Role) (s : Replay) : Prop where
  coherent : Coherent g s
  mem : ∀ m ∈ entrants rs, m ∈ g.slots
  claimed : ∀ group c,
    s.claimed.lookup group = some c ↔ c ∈ entrants rs ∧ c.arg.group = some group
  used : ∀ a, a ∈ s.used ↔ ∃ m ∈ entrants rs, g.Withdraws m a

theorem start_recorded (g : Grammar) : Recorded g [] (start g) where
  coherent := start_coherent g
  mem := by simp [entrants]
  claimed := by simp [entrants, start]
  used := by simp [entrants, start]

theorem Recorded.congr (h : Recorded g rs s) (hs' : Coherent g s')
    (hclaimed : s'.claimed = s.claimed) (hused : s'.used = s.used)
    (hentrants : entrants ts = entrants rs) : Recorded g ts s' where
  coherent := hs'
  mem := by
    rw [hentrants]
    exact h.mem
  claimed := by
    rw [hclaimed, hentrants]
    exact h.claimed
  used := by
    rw [hused, hentrants]
    exact h.used

theorem Recorded.joins (h : Recorded g rs s) (hs' : Coherent g s') (hjoins : Joins g s m s')
    (hentrants : entrants ts = entrants rs ++ [m]) : Recorded g ts s' where
  coherent := hs'
  mem := by
    intro c hc
    rw [hentrants, List.mem_append, List.mem_singleton] at hc
    rcases hc with hc | rfl
    · exact h.mem c hc
    · exact hjoins.mem
  claimed := by
    intro group c
    rw [hjoins.claimed, hentrants, List.mem_append, List.mem_singleton]
    split
    · next hgroup =>
        constructor
        · intro hc
          cases hc
          exact ⟨Or.inr rfl, hgroup⟩
        · rintro ⟨hc | rfl, hcg⟩
          · -- An earlier member of the group is its owner, and `m` was let in.
            rw [hjoins.free hgroup ((h.claimed group c).mpr ⟨hc, hcg⟩)]
          · rfl
    · next hgroup =>
        rw [h.claimed]
        constructor
        · rintro ⟨hc, hcg⟩
          exact ⟨Or.inl hc, hcg⟩
        · rintro ⟨hc | rfl, hcg⟩
          · exact ⟨hc, hcg⟩
          · exact absurd hcg hgroup
  used := by
    intro a
    rw [hjoins.used, h.used, hentrants]
    simp only [List.mem_append, List.mem_singleton]
    constructor
    · rintro (⟨c, hc, hca⟩ | hma)
      · exact ⟨c, Or.inl hc, hca⟩
      · exact ⟨m, Or.inr rfl, hma⟩
    · rintro ⟨c, hc | rfl, hca⟩
      · exact Or.inl ⟨c, hc, hca⟩
      · exact Or.inr hca

/-- **Every step keeps the record.** -/
theorem Recorded.step (h : Recorded g rs s) (hstep : Step g s word r s') :
    Recorded g (rs ++ [r]) s' := by
  have hs' := h.coherent.step hstep
  cases hr : r.entrant? with
  | none =>
      obtain ⟨hclaimed, hused⟩ := hstep.unchanged h.coherent hr
      exact h.congr hs' hclaimed hused (by simp [entrants, hr])
  | some m => exact h.joins hs' (hstep.joins h.coherent hr) (by simp [entrants, hr])

/-- **After every run the state tells who came into use.** -/
theorem feedAll_recorded (h : feedAll g (start g) words = .ok (.next s)) :
    Recorded g (roles g (start g) words) s := by
  obtain ⟨s', hs', hlast⟩ := roles_invariant Recorded.step (start_recorded g) words
  rw [hlast s h]
  exact hs'

end Replay

end TabCompletion
