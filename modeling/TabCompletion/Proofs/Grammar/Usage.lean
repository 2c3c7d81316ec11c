import TabCompletion.Grammar.Help
import TabCompletion.Proofs.Grammar.WellFormed

/-!
# The parts of the usage line

The usage line goes through the flags that are shown and remembers which exclusive groups had their
part (`Grammar.flagParts`). `Grammar.outline` says without a memory what stands at the place of each
flag: the flag itself if it is in no group, all shown flags of its group if it is the first of them, and
nothing otherwise. Both come to the same (`flagParts_eq`), and no shown argument is left out or stands
twice (`outline_flags_perm`).

Main statement: `usage_outline`.
-/

namespace TabCompletion

variable {g : Grammar} {s t : Slot} {k : Nat} {before rest : List Slot}

/-! ## Outlines -/

/-- A part of a usage line, by the arguments it stands for. -/
inductive UsagePart where
  /-- A flag in no exclusive group. -/
  | flag (s : Slot)
  /-- An exclusive group with some of its members. -/
  | group (number : Nat) (members : List Slot)
  | positional (s : Slot)

namespace UsagePart

def flags : UsagePart → List Slot
  | .flag s => [s]
  | .group _ members => members
  | .positional _ => []

def positionals : UsagePart → List Slot
  | .positional s => [s]
  | _ => []

/-- The members in a part for the exclusive group `k`. -/
def membersOf? (k : Nat) : UsagePart → Option (List Slot)
  | .group j members => if j = k then some members else none
  | _ => none

/-- The text of a part: an optional flag stands in square brackets, a group in round ones if it is
required and in square ones otherwise. -/
def text (g : Grammar) : UsagePart → String
  | .flag s => if s.arg.required then s.arg.usagePart else "[" ++ s.arg.usagePart ++ "]"
  | .group k members =>
    let joined := " | ".intercalate (members.map (·.arg.usagePart))
    if g.groupRequired k then "(" ++ joined ++ ")" else "[" ++ joined ++ "]"
  | .positional s => s.arg.valueNames

end UsagePart

namespace Grammar

/-- The members of an exclusive group that are shown flags, in the order of their declaration. -/
def shownMembers (g : Grammar) (k : Nat) : List Slot := (g.groupMembers k).filter isVisibleFlag

/-- Whether an argument is the first shown flag of an exclusive group. -/
def leads (g : Grammar) (s : Slot) (k : Nat) : Bool :=
  (g.shownMembers k).head?.any (·.index == s.index)

/-- The part at the place of a shown flag. -/
def partAt? (g : Grammar) (s : Slot) : Option UsagePart :=
  match s.arg.group with
  | none => some (.flag s)
  | some k => if g.leads s k then some (.group k (g.shownMembers k)) else none

/-- The parts for the shown flags, each at the place of its first flag. -/
def flagOutline (g : Grammar) : List UsagePart := g.visibleFlags.filterMap g.partAt?

/-- The parts of the usage line: those for the shown flags, then one for each shown positional. -/
def outline (g : Grammar) : List UsagePart :=
  g.flagOutline ++ g.visiblePositionals.map .positional

/-! ## Shown flags -/

theorem visibleFlags_nodup (g : Grammar) : g.visibleFlags.Nodup := g.slots_nodup.filter _

theorem visiblePositionals_nodup (g : Grammar) : g.visiblePositionals.Nodup :=
  g.positionals_nodup.filter _

theorem mem_shownMembers :
    s ∈ g.shownMembers k ↔ s ∈ g.visibleFlags ∧ s.arg.group = some k := by
  simp only [shownMembers, visibleFlags, List.mem_filter, mem_groupMembers]
  tauto

theorem shownMembers_eq (g : Grammar) (k : Nat) :
    g.shownMembers k = g.visibleFlags.filter fun s => s.arg.group == some k := by
  simp only [shownMembers, groupMembers, visibleFlags, List.filter_filter, Bool.and_comm]

theorem shownMembers_nodup (g : Grammar) (k : Nat) : (g.shownMembers k).Nodup := by
  rw [shownMembers_eq]
  exact g.visibleFlags_nodup.filter _

/-- The first shown flag of a group is known by its place. -/
theorem leads_iff (hs : s ∈ g.visibleFlags) :
    g.leads s k = true ↔ (g.shownMembers k).head? = some s := by
  rw [leads, Option.any_eq_true]
  constructor
  · rintro ⟨t, hhead, hindex⟩
    have ht := (mem_shownMembers.mp (List.mem_of_head? hhead)).1
    rw [hhead, slot_eq_of_index_eq (List.mem_filter.mp ht).1 (List.mem_filter.mp hs).1
      (by simpa using hindex)]
  · intro hhead
    exact ⟨s, hhead, beq_self_eq_true _⟩

/-- A shown flag of a group is the first just if none before it is of this group. -/
theorem leads_of_append (hflags : g.visibleFlags = before ++ s :: rest)
    (hgroup : s.arg.group = some k) :
    g.leads s k = true ↔ ∀ t ∈ before, t.arg.group ≠ some k := by
  have hs : s ∈ g.visibleFlags := by simp [hflags]
  rw [leads_iff hs, shownMembers_eq, hflags, List.filter_append,
    List.filter_cons_of_pos (by simp [hgroup])]
  constructor
  · intro hhead t ht hother
    have hmember : t ∈ before.filter fun t => t.arg.group == some k := by simp [ht, hother]
    -- The first of those before would be `s` itself, which stands only once.
    obtain ⟨u, us, hbefore⟩ := List.exists_cons_of_ne_nil (List.ne_nil_of_mem hmember)
    rw [hbefore] at hhead
    cases hhead
    have hin : s ∈ before.filter fun t => t.arg.group == some k := by simp [hbefore]
    have hnodup := g.visibleFlags_nodup
    rw [hflags] at hnodup
    exact (List.nodup_append.mp hnodup).2.2 s (List.mem_filter.mp hin).1 s List.mem_cons_self rfl
  · intro hnone
    rw [List.filter_eq_nil_iff.mpr (by simpa using hnone)]
    rfl

variable {p : UsagePart}

theorem mem_flagOutline : p ∈ g.flagOutline ↔ ∃ s ∈ g.visibleFlags, g.partAt? s = some p :=
  List.mem_filterMap

/-- At the place of a flag stands the flag itself, or its group if it is the first of it. -/
theorem partAt?_cases (hs : s ∈ g.visibleFlags) (hp : g.partAt? s = some p) :
    (s.arg.group = none ∧ p = .flag s) ∨
      ∃ k, s.arg.group = some k ∧ (g.shownMembers k).head? = some s ∧
        p = .group k (g.shownMembers k) := by
  unfold partAt? at hp
  split at hp
  · next hgroup =>
      cases hp
      exact Or.inl ⟨hgroup, rfl⟩
  · next k hgroup =>
      split at hp
      · next hleads =>
          cases hp
          exact Or.inr ⟨k, hgroup, (leads_iff hs).mp hleads, rfl⟩
      · contradiction

/-! ## Going through the flags -/

/-- **The memory of the groups that had their part finds the first flag of each.** -/
theorem flagParts_eq {shown : List Nat} (hflags : g.visibleFlags = before ++ rest)
    (hshown : ∀ k, k ∈ shown ↔ ∃ t ∈ before, t.arg.group = some k) :
    g.flagParts shown rest = (rest.filterMap g.partAt?).map (·.text g) := by
  induction rest generalizing before shown with
  | nil => rfl
  | cons s rest ih =>
      have hnext : g.visibleFlags = (before ++ [s]) ++ rest := by simp [hflags]
      cases hgroup : s.arg.group with
      | none =>
          have hpart : g.partAt? s = some (.flag s) := by simp only [partAt?, hgroup]
          have hrest := @ih _ shown hnext (by simp [hshown, hgroup])
          rw [List.filterMap_cons_some hpart, List.map_cons, ← hrest]
          simp only [flagParts, hgroup]
          rfl
      | some k =>
          have hleads := leads_of_append hflags hgroup
          by_cases hin : k ∈ shown
          · have hpart : g.partAt? s = none := by
              have hnot : ¬ g.leads s k = true := by
                rw [hleads]
                intro hnone
                obtain ⟨t, ht, htk⟩ := (hshown k).mp hin
                exact hnone t ht htk
              simp only [partAt?, hgroup, if_neg hnot]
            have hrest := @ih _ shown hnext (by grind)
            rw [List.filterMap_cons_none hpart, ← hrest]
            simp [flagParts, hgroup, hin]
          · have hpart : g.partAt? s = some (.group k (g.shownMembers k)) := by
              have hfirst : g.leads s k = true := by
                rw [hleads]
                intro t ht htk
                exact hin ((hshown k).mpr ⟨t, ht, htk⟩)
              simp only [partAt?, hgroup, if_pos hfirst]
            have hrest := @ih _ (k :: shown) hnext (by grind)
            rw [List.filterMap_cons_some hpart, List.map_cons, ← hrest]
            simp [flagParts, hgroup, hin]
            rfl

theorem usageParts_eq (g : Grammar) : g.usageParts = g.outline.map (·.text g) := by
  have hflags := @flagParts_eq g [] g.visibleFlags [] rfl (by simp)
  rw [usageParts, hflags, outline, List.map_append, List.map_map]
  rfl

/-! ## Each argument once -/

theorem mem_flagOutline_flags : t ∈ g.flagOutline.flatMap (·.flags) ↔ t ∈ g.visibleFlags := by
  rw [List.mem_flatMap]
  constructor
  · rintro ⟨p, hp, ht⟩
    obtain ⟨s, hs, hp⟩ := mem_flagOutline.mp hp
    rcases partAt?_cases hs hp with ⟨-, rfl⟩ | ⟨k, -, -, rfl⟩
    · rw [List.mem_singleton.mp ht]
      exact hs
    · exact (mem_shownMembers.mp ht).1
  · intro ht
    cases hgroup : t.arg.group with
    | none =>
        refine ⟨.flag t, mem_flagOutline.mpr ⟨t, ht, ?_⟩, List.mem_singleton_self t⟩
        simp only [partAt?, hgroup]
    | some k =>
        -- The part of the group stands at its first shown flag.
        have hmember := mem_shownMembers.mpr ⟨ht, hgroup⟩
        obtain ⟨s, us, hmembers⟩ := List.exists_cons_of_ne_nil (List.ne_nil_of_mem hmember)
        have hhead : (g.shownMembers k).head? = some s := by rw [hmembers, List.head?_cons]
        obtain ⟨hs, hsgroup⟩ := mem_shownMembers.mp (List.mem_of_head? hhead)
        refine ⟨.group k (g.shownMembers k), mem_flagOutline.mpr ⟨s, hs, ?_⟩, hmember⟩
        simp only [partAt?, hsgroup, if_pos ((leads_iff hs).mpr hhead)]

/-- Two places have no flag in common. -/
theorem partAt?_disjoint {q : UsagePart} (hs : s ∈ g.visibleFlags) (ht : t ∈ g.visibleFlags)
    (hne : s ≠ t) (hp : g.partAt? s = some p) (hq : g.partAt? t = some q) :
    p.flags.Disjoint q.flags := by
  intro f hfp hfq
  rcases partAt?_cases hs hp with ⟨hsg, rfl⟩ | ⟨k, hsg, hshead, rfl⟩
  · obtain rfl := List.mem_singleton.mp hfp
    rcases partAt?_cases ht hq with ⟨htg, rfl⟩ | ⟨j, htg, hthead, rfl⟩
    · exact hne (List.mem_singleton.mp hfq)
    · simp [(mem_shownMembers.mp hfq).2] at hsg
  · have hk := (mem_shownMembers.mp hfp).2
    rcases partAt?_cases ht hq with ⟨htg, rfl⟩ | ⟨j, htg, hthead, rfl⟩
    · obtain rfl := List.mem_singleton.mp hfq
      simp [hk] at htg
    · -- The flag is of one group, which has one first flag.
      cases hk.symm.trans (mem_shownMembers.mp hfq).2
      rw [hshead] at hthead
      exact hne (Option.some.inj hthead)

theorem flagOutline_flags_nodup (g : Grammar) : (g.flagOutline.flatMap (·.flags)).Nodup := by
  rw [List.nodup_flatMap]
  constructor
  · intro p hp
    obtain ⟨s, hs, hp⟩ := mem_flagOutline.mp hp
    rcases partAt?_cases hs hp with ⟨-, rfl⟩ | ⟨k, -, -, rfl⟩
    · exact List.nodup_singleton s
    · exact g.shownMembers_nodup k
  · rw [flagOutline, List.pairwise_filterMap]
    apply g.visibleFlags_nodup.pairwise_of_forall_ne
    intro s hs t ht hne p hp q hq
    exact partAt?_disjoint hs ht hne hp hq

/-- **Every shown flag stands in one part of the usage line, once.** -/
theorem outline_flags_perm (g : Grammar) :
    (g.outline.flatMap (·.flags)).Perm g.visibleFlags ∧ (g.outline.flatMap (·.flags)).Nodup := by
  have houtline : g.outline.flatMap (·.flags) = g.flagOutline.flatMap (·.flags) := by
    rw [outline, List.flatMap_append, List.flatMap_map]
    simp [UsagePart.flags]
  have hnodup := g.flagOutline_flags_nodup
  rw [houtline]
  refine ⟨?_, hnodup⟩
  rw [List.perm_ext_iff_of_nodup hnodup g.visibleFlags_nodup]
  intro t
  exact mem_flagOutline_flags

/-- The shown positionals stand in parts of their own, in their order. -/
theorem outline_positionals (g : Grammar) :
    g.outline.flatMap (·.positionals) = g.visiblePositionals := by
  have hnone : g.flagOutline.flatMap (·.positionals) = [] := by
    rw [List.flatMap_eq_nil_iff]
    intro p hp
    obtain ⟨s, hs, hp⟩ := mem_flagOutline.mp hp
    rcases partAt?_cases hs hp with ⟨-, rfl⟩ | ⟨k, -, -, rfl⟩ <;> rfl
  rw [outline, List.flatMap_append, hnone, List.nil_append, List.flatMap_map]
  simp [UsagePart.positionals]

/-! ## Each group once -/

/-- The part for a group stands at its first shown flag and nowhere else. -/
theorem membersOf?_partAt? (hs : s ∈ g.visibleFlags) :
    (g.partAt? s).bind (·.membersOf? k) = if g.leads s k then some (g.shownMembers k) else none := by
  have hgroup (hleads : g.leads s k = true) : s.arg.group = some k :=
    (mem_shownMembers.mp (List.mem_of_head? ((leads_iff hs).mp hleads))).2
  cases hleads : g.leads s k with
  | true => simp [partAt?, hgroup hleads, hleads, UsagePart.membersOf?]
  | false =>
      rw [if_neg Bool.false_ne_true, Option.bind_eq_none_iff]
      intro p hp
      rcases partAt?_cases hs hp with ⟨-, rfl⟩ | ⟨j, -, hhead, rfl⟩
      · rfl
      · show (if j = k then some (g.shownMembers j) else none) = none
        rw [if_neg]
        rintro rfl
        rw [(leads_iff hs).mpr hhead] at hleads
        contradiction

theorem filter_leads (g : Grammar) (k : Nat) :
    (g.visibleFlags.filter fun s => g.leads s k) = (g.shownMembers k).head?.toList := by
  -- Only a member of the group leads it, and of the members only the first.
  have hmembers : (g.visibleFlags.filter fun s => g.leads s k) =
      (g.shownMembers k).filter fun s => g.leads s k := by
    rw [shownMembers_eq, List.filter_filter]
    apply List.filter_congr
    intro s hs
    cases hleads : g.leads s k with
    | false => rfl
    | true =>
        have hgroup := (mem_shownMembers.mp (List.mem_of_head? ((leads_iff hs).mp hleads))).2
        simp [hgroup]
  rw [hmembers]
  have hnodup := g.shownMembers_nodup k
  have hvisible {t : Slot} (ht : t ∈ g.shownMembers k) : t ∈ g.visibleFlags := (mem_shownMembers.mp ht).1
  have hfirst {t : Slot} (ht : t ∈ g.shownMembers k) :
      g.leads t k = true ↔ (g.shownMembers k).head? = some t := leads_iff (hvisible ht)
  cases hcons : g.shownMembers k with
  | nil => rfl
  | cons t ts =>
      simp only [hcons, List.head?_cons, Option.some.injEq] at hfirst hnodup
      rw [List.filter_cons, if_pos ((hfirst List.mem_cons_self).mpr rfl), List.filter_eq_nil_iff.mpr]
      · rfl
      · intro u hu hleads
        cases (hfirst (List.mem_cons_of_mem t hu)).mp hleads
        exact (List.nodup_cons.mp hnodup).1 hu

/-- **A group with a shown flag has one part, with all its shown flags**; no other group has one. -/
theorem outline_group (g : Grammar) (k : Nat) :
    g.outline.filterMap (·.membersOf? k) =
      if (g.shownMembers k).isEmpty then [] else [g.shownMembers k] := by
  have hpositionals : (g.visiblePositionals.map .positional).filterMap (UsagePart.membersOf? k) = [] := by
    rw [List.filterMap_eq_nil_iff]
    simp [UsagePart.membersOf?]
  rw [outline, List.filterMap_append, hpositionals, List.append_nil, flagOutline,
    List.filterMap_filterMap, List.filterMap_congr fun s hs => membersOf?_partAt? hs,
    ← List.filterMap_filter, filter_leads]
  cases g.shownMembers k <;> rfl

/-- **The usage line has every shown argument once.** Its parts are those of the outline, joined by
spaces: for each shown flag in no group a part of its own, for each group with a shown flag one part
with all its shown flags at the place of the first of them, and then a part for each shown positional.
So every shown flag stands in one part, and stands there once. -/
theorem usage_outline (g : Grammar) :
    g.usage = " ".intercalate ("usage:" :: g.prog :: g.outline.map (·.text g)) ∧
      (g.outline.flatMap (·.flags)).Perm g.visibleFlags ∧
      (g.outline.flatMap (·.flags)).Nodup ∧
      (∀ k, g.outline.filterMap (·.membersOf? k) =
        if (g.shownMembers k).isEmpty then [] else [g.shownMembers k]) ∧
      g.outline.flatMap (·.positionals) = g.visiblePositionals ∧ g.visiblePositionals.Nodup := by
  obtain ⟨hperm, hnodup⟩ := g.outline_flags_perm
  refine ⟨?_, hperm, hnodup, g.outline_group, g.outline_positionals, g.visiblePositionals_nodup⟩
  rw [usage, usageParts_eq]

end Grammar

end TabCompletion
