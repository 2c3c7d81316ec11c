import Mathlib.Data.List.Nodup
import Mathlib.Data.List.Perm.Basic
import TabCompletion.Schema.Build

/-!
# The order of declared arguments

An exclusive group is declared where its first member stands, so the other members are moved up to
it. The arguments that stay in their order are those in no group and the first member of each group
(`leaders`); each brings its group with it (`block`). What comes of this is a permutation of the
declared arguments that keeps the order of the leaders and has the members of each group together,
in their order (`arrangement_arranges`).

Arguments are told apart by their places, since two of them may be declared alike.
-/

namespace TabCompletion.Schema

variable {o : Outline} {p q : Arg × Nat} {ps : List (Arg × Nat)} {name : String}

/-- The names of the groups that arguments are in, one after the other. -/
def groupsOf (ps : List (Arg × Nat)) : List String := ps.filterMap (·.1.group)

theorem groupsOf_cons_of_none (h : p.1.group = none) : groupsOf (p :: ps) = groupsOf ps := by
  simp only [groupsOf, List.filterMap_cons, h]

theorem groupsOf_cons_of_some (h : p.1.group = some name) :
    groupsOf (p :: ps) = name :: groupsOf ps := by
  simp only [groupsOf, List.filterMap_cons, h]

namespace Outline

/-! ## Places and leaders -/

def places (o : Outline) : List (Arg × Nat) := o.args.zipIdx

/-- Whether an argument is in no group, or none of those before it is in its group. -/
def leads (o : Outline) (p : Arg × Nat) : Bool :=
  decide (p.1.group = none ∨ ∀ a ∈ o.args.take p.2, a.group ≠ p.1.group)

/-- The arguments in no group and the first members of the groups. -/
def leaders (o : Outline) : List (Arg × Nat) := o.places.filter o.leads

/-- The members of a group in their places. -/
def members (o : Outline) (name : String) : List (Arg × Nat) :=
  o.places.filter fun p => p.1.group == some name

/-- The names of the groups in the order of their first members. -/
def groupNames (o : Outline) : List String := groupsOf o.leaders

/-- What is declared where a leader stands: itself, or its group. -/
def block (o : Outline) (p : Arg × Nat) : List (Arg × Nat) := p.1.group.elim [p] o.members

/-- The arguments in the order in which they are declared to the grammar. -/
def arrangement (o : Outline) : List (Arg × Nat) := o.leaders.flatMap o.block

theorem mem_places : p ∈ o.places ↔ o.args[p.2]? = some p.1 := List.mem_zipIdx_iff_getElem?

theorem places_increasing (o : Outline) : o.places.Pairwise (·.2 < ·.2) := by
  rw [← List.pairwise_map, places, List.zipIdx_map_snd]
  exact List.pairwise_lt_range'

theorem places_nodup (o : Outline) : o.places.Nodup :=
  o.places_increasing.imp fun hlt heq => absurd (congrArg Prod.snd heq) (Nat.ne_of_lt hlt)

theorem mem_members : p ∈ o.members name ↔ p ∈ o.places ∧ p.1.group = some name := by
  rw [members, List.mem_filter, beq_iff_eq]

theorem mem_leaders : p ∈ o.leaders ↔ p ∈ o.places ∧ o.leads p = true := List.mem_filter

theorem leads_iff :
    o.leads p = true ↔ p.1.group = none ∨ ∀ a ∈ o.args.take p.2, a.group ≠ p.1.group := by
  rw [leads, decide_eq_true_iff]

theorem leaders_nodup (o : Outline) : o.leaders.Nodup := o.places_nodup.filter _

/-- No member of its group comes before a leader. -/
theorem le_of_mem_leaders (hq : q ∈ o.leaders) (hname : q.1.group = some name)
    (hp : p ∈ o.members name) : q.2 ≤ p.2 := by
  obtain ⟨hplace, hgroup⟩ := mem_members.mp hp
  obtain ⟨-, hleads⟩ := mem_leaders.mp hq
  rw [leads_iff, hname] at hleads
  by_contra hlt
  have hbefore : p.1 ∈ o.args.take q.2 := by
    apply List.mem_of_getElem? (i := p.2)
    rw [List.getElem?_take_of_lt (by omega)]
    exact mem_places.mp hplace
  rcases hleads with hnone | hfirst
  · contradiction
  · exact hfirst p.1 hbefore hgroup

/-- A group has one leader. -/
theorem eq_of_mem_leaders (hp : p ∈ o.leaders) (hq : q ∈ o.leaders) (hname : p.1.group = some name)
    (hname' : q.1.group = some name) : p = q := by
  have hplace := (mem_leaders.mp hp).1
  have hplace' := (mem_leaders.mp hq).1
  have hle := le_of_mem_leaders hq hname' (mem_members.mpr ⟨hplace, hname⟩)
  have hle' := le_of_mem_leaders hp hname (mem_members.mpr ⟨hplace', hname'⟩)
  have hsame : p.2 = q.2 := by omega
  rw [mem_places] at hplace hplace'
  rw [hsame, hplace', Option.some.injEq] at hplace
  exact Prod.ext hplace.symm hsame

/-- A group that has a member has a first one. -/
theorem exists_leader (hp : p ∈ o.places) (hgroup : p.1.group = some name) :
    ∃ q ∈ o.leaders, q.1.group = some name := by
  have hfound : (o.args.find? (·.group == some name)).isSome := by
    rw [List.find?_isSome]
    exact ⟨p.1, List.mem_of_getElem? (mem_places.mp hp), beq_iff_eq.mpr hgroup⟩
  obtain ⟨first, hfirst⟩ := Option.isSome_iff_exists.mp hfound
  obtain ⟨hname, before, after, hargs, hbefore⟩ := List.find?_eq_some_iff_append.mp hfirst
  have hname : first.group = some name := beq_iff_eq.mp hname
  refine ⟨(first, before.length), mem_leaders.mpr ⟨?_, ?_⟩, hname⟩
  · rw [mem_places, hargs]
    simp
  · rw [leads_iff, hargs, List.take_left, hname]
    right
    intro a ha
    simpa using hbefore a ha

theorem groupNames_nodup (o : Outline) : o.groupNames.Nodup := by
  rw [groupNames, groupsOf, List.Nodup, List.pairwise_filterMap]
  apply o.leaders_nodup.imp_of_mem
  intro p q hp hq hne n hn m hm heq
  exact hne (eq_of_mem_leaders hp hq hn (heq ▸ hm))

theorem mem_groupNames : name ∈ o.groupNames ↔ ∃ p ∈ o.places, p.1.group = some name := by
  rw [groupNames, groupsOf, List.mem_filterMap]
  constructor
  · rintro ⟨p, hp, hname⟩
    exact ⟨p, (mem_leaders.mp hp).1, hname⟩
  · rintro ⟨p, hp, hname⟩
    exact exists_leader hp hname

/-! ## Blocks -/

theorem block_of_none (h : p.1.group = none) : o.block p = [p] := by rw [block, h, Option.elim_none]

theorem block_of_some (h : p.1.group = some name) : o.block p = o.members name := by
  rw [block, h, Option.elim_some]

/-- The arguments of a block are in the group of its leader, or it is the leader. -/
theorem mem_block (hp : p ∈ o.leaders) :
    q ∈ o.block p ↔ q ∈ o.places ∧ q.1.group = p.1.group ∧ (p.1.group = none → q = p) := by
  cases hgroup : p.1.group with
  | none =>
      rw [block_of_none hgroup, List.mem_singleton]
      constructor
      · rintro rfl
        exact ⟨(mem_leaders.mp hp).1, hgroup, fun _ => rfl⟩
      · rintro ⟨-, -, heq⟩
        exact heq rfl
  | some name =>
      rw [block_of_some hgroup, mem_members]
      simp

theorem block_nodup (o : Outline) (p : Arg × Nat) : (o.block p).Nodup := by
  unfold block
  cases p.1.group with
  | none => exact List.nodup_singleton p
  | some name => exact o.places_nodup.filter _

/-- The leader of a block is the only one in it. -/
theorem eq_of_mem_block (hp : p ∈ o.leaders) (hq : q ∈ o.leaders) (h : q ∈ o.block p) : q = p := by
  obtain ⟨-, hsame, hself⟩ := (mem_block hp).mp h
  cases hgroup : p.1.group with
  | none => exact hself hgroup
  | some name => exact eq_of_mem_leaders hq hp (hsame.trans hgroup) hgroup

theorem filter_leads_block (hp : p ∈ o.leaders) : (o.block p).filter o.leads = [p] := by
  apply List.perm_singleton.mp
  rw [List.perm_ext_iff_of_nodup ((o.block_nodup p).filter _) (List.nodup_singleton p)]
  intro q
  rw [List.mem_filter, List.mem_singleton]
  constructor
  · rintro ⟨hq, hleads⟩
    have hplace := ((mem_block hp).mp hq).1
    exact eq_of_mem_block hp (mem_leaders.mpr ⟨hplace, hleads⟩) hq
  · rintro rfl
    obtain ⟨hplace, hleads⟩ := mem_leaders.mp hp
    exact ⟨(mem_block hp).mpr ⟨hplace, rfl, fun _ => rfl⟩, hleads⟩

/-! ## The arrangement -/

theorem arrangement_nodup (o : Outline) : o.arrangement.Nodup := by
  rw [arrangement, List.nodup_flatMap]
  refine ⟨fun p _ => o.block_nodup p, ?_⟩
  apply o.leaders_nodup.imp_of_mem
  intro p q hp hq hne r hr hr'
  obtain ⟨-, hrp, hself⟩ := (mem_block hp).mp hr
  obtain ⟨-, hrq, hself'⟩ := (mem_block hq).mp hr'
  cases hgroup : r.1.group with
  | none =>
      have hrp' : r = p := hself (hrp.symm.trans hgroup)
      have hrq' : r = q := hself' (hrq.symm.trans hgroup)
      exact hne (hrp'.symm.trans hrq')
  | some name => exact hne (eq_of_mem_leaders hp hq (hrp.symm.trans hgroup) (hrq.symm.trans hgroup))

theorem mem_arrangement : p ∈ o.arrangement ↔ p ∈ o.places := by
  rw [arrangement, List.mem_flatMap]
  constructor
  · rintro ⟨q, hq, hpq⟩
    exact ((mem_block hq).mp hpq).1
  · intro hp
    cases hgroup : p.1.group with
    | none =>
        have hleader : p ∈ o.leaders := mem_leaders.mpr ⟨hp, leads_iff.mpr (Or.inl hgroup)⟩
        exact ⟨p, hleader, (mem_block hleader).mpr ⟨hp, rfl, fun _ => rfl⟩⟩
    | some name =>
        obtain ⟨q, hq, hname⟩ := exists_leader hp hgroup
        exact ⟨q, hq, (mem_block hq).mpr ⟨hp, by rw [hgroup, hname], by simp [hname]⟩⟩

/-- The arguments in an order in which each of them stands once, the leaders stand as they are
declared, and the members of each group stand together as they are declared. -/
structure Arranges (o : Outline) (arranged : List (Arg × Nat)) : Prop where
  once : arranged.Perm o.places
  leaders : arranged.filter o.leads = o.places.filter o.leads
  together : ∀ name, o.members name <:+: arranged

/-- **Groups that are declared where their first members stand keep the order.** -/
theorem arrangement_arranges (o : Outline) : o.Arranges o.arrangement where
  once := by
    rw [List.perm_ext_iff_of_nodup o.arrangement_nodup o.places_nodup]
    intro p
    exact mem_arrangement
  leaders := by
    have hblocks : o.leaders.flatMap (fun p => (o.block p).filter o.leads) =
        o.leaders.flatMap fun p => [p] :=
      List.flatMap_congr fun p hp => filter_leads_block hp
    rw [arrangement, List.filter_flatMap, hblocks, List.flatMap_singleton', ← leaders]
  together name := by
    by_cases hname : name ∈ o.groupNames
    · obtain ⟨p, hp, hgroup⟩ := List.mem_filterMap.mp hname
      obtain ⟨before, after, hleaders⟩ := List.append_of_mem hp
      refine ⟨before.flatMap o.block, after.flatMap o.block, ?_⟩
      rw [arrangement, hleaders, List.flatMap_append, List.flatMap_cons, block_of_some hgroup,
        List.append_assoc]
    · have hnone : o.members name = [] := by
        rw [List.eq_nil_iff_forall_not_mem]
        intro p hp
        obtain ⟨hplace, hgroup⟩ := mem_members.mp hp
        exact hname (mem_groupNames.mpr ⟨p, hplace, hgroup⟩)
      rw [hnone]
      exact List.nil_infix

end Outline

end TabCompletion.Schema
