import Mathlib.Data.List.Induction
import TabCompletion.Grammar.Flaglike
import TabCompletion.Proofs.Grammar.Declared
import TabCompletion.Proofs.Grammar.Spellings

/-!
# Tables that are filled argument by argument

A reader of a grammar looks flags, positionals, the dispatch argument and groups up in what is computed
from the list of arguments (`Grammar.registry`). The same tables can be filled as the arguments are put one
after the other: `Registry.add` enters one argument into each table that it belongs in. In a built grammar
no spelling is entered for two flags and no second dispatch argument replaces the first, so both ways
lead to the same tables (`Grammar.build_filled`).
-/

namespace TabCompletion

/-- The tables of a grammar. Arguments are given by their places. -/
structure Registry where
  flags : List (String × Nat)
  positionals : List Nat
  dispatch : Option Nat
  groups : List (List Nat)
  negativeNumbers : Bool
  deriving DecidableEq, Repr

variable {g : Grammar} {spec : GrammarSpec} {s : Slot} {slots : List Slot} {groupCount owner : Nat}
  {flags : List (String × Nat)} {aliases : List String}

namespace Registry

def empty (groupCount : Nat) : Registry :=
  { flags := []
    positionals := []
    dispatch := none
    groups := List.replicate groupCount []
    negativeNumbers := false }

/-- Enter a spelling: a new one at the end, one that is there already in its place. -/
def enter (owner : Nat) (flags : List (String × Nat)) (a : String) : List (String × Nat) :=
  if flags.any (·.1 == a) then flags.map fun e => if e.1 == a then (a, owner) else e
  else flags ++ [(a, owner)]

def add (t : Registry) (s : Slot) : Registry :=
  { flags := s.arg.aliases.foldl (enter s.index) t.flags
    positionals := if s.arg.isFlag then t.positionals else t.positionals ++ [s.index]
    dispatch := if s.arg.isDispatch then some s.index else t.dispatch
    groups :=
      match s.arg.group with
      | some k => t.groups.modify k (· ++ [s.index])
      | none => t.groups
    negativeNumbers := t.negativeNumbers || s.arg.aliases.any isNegativeNumber }

/-- The tables as they are computed from arguments in their places. -/
def ofSlots (groupCount : Nat) (slots : List Slot) : Registry :=
  { flags := (slots.flatMap Grammar.flagEntries).map fun e => (e.1, e.2.index)
    positionals := (slots.filter fun s => !s.arg.isFlag).map (·.index)
    dispatch := (slots.find? fun s => s.arg.isDispatch).map (·.index)
    groups := (List.range groupCount).map fun k =>
      (slots.filter fun s => s.arg.group == some k).map (·.index)
    negativeNumbers := (slots.flatMap Grammar.flagEntries).any fun e => isNegativeNumber e.1 }

/-! ## One argument more -/

/-- An argument that shares no spelling with those before it, and is not a second dispatch argument. -/
structure Fresh (slots : List Slot) (s : Slot) : Prop where
  spellings : ∀ t ∈ slots, ∀ a ∈ t.arg.aliases, a ∉ s.arg.aliases
  dispatch : ∀ t ∈ slots, t.arg.isDispatch = true → s.arg.isDispatch = false

theorem enter_of_new {a : String} (h : ∀ e ∈ flags, e.1 ≠ a) :
    enter owner flags a = flags ++ [(a, owner)] := by
  have hany : flags.any (·.1 == a) = false := by simpa using h
  simp [enter, hany]

/-- A spelling that is entered for the same owner again changes nothing. -/
theorem enter_of_entered {a : String} (hin : (a, owner) ∈ flags)
    (hown : ∀ e ∈ flags, e.1 = a → e.2 = owner) : enter owner flags a = flags := by
  have hany : flags.any (·.1 == a) = true := List.any_eq_true.mpr ⟨_, hin, by simp⟩
  rw [enter, if_pos hany]
  refine (List.map_congr_left ?_).trans (List.map_id flags)
  intro e he
  by_cases ha : e.1 = a
  · rw [if_pos (beq_iff_eq.mpr ha), ← ha, ← hown e he ha]
    rfl
  · rw [if_neg (by simpa using ha)]
    rfl

/-- New spellings are entered at the end, each once. -/
theorem foldl_enter (hfresh : ∀ e ∈ flags, e.1 ∉ aliases) :
    aliases.foldl (enter owner) flags = flags ++ aliases.eraseDups.map (·, owner) := by
  induction aliases using List.reverseRecOn with
  | nil => simp
  | append_singleton aliases a ih =>
      have hbefore : ∀ e ∈ flags, e.1 ≠ a := fun e he heq => hfresh e he (by simp [heq])
      rw [List.foldl_append, ih fun e he hin => hfresh e he (by simp [hin]), eraseDups_concat,
        List.foldl_cons, List.foldl_nil]
      -- A spelling that is repeated within one flag stands in the table already, for the same owner.
      by_cases ha : a ∈ aliases
      · rw [if_pos ha]
        apply enter_of_entered
        · simp [ha]
        · intro e he heq
          rcases List.mem_append.mp he with he | he
          · exact absurd heq (hbefore e he)
          · obtain ⟨b, -, rfl⟩ := List.mem_map.mp he
            rfl
      · rw [if_neg ha, enter_of_new]
        · rw [List.append_assoc, List.map_append]
          rfl
        · intro e he
          rcases List.mem_append.mp he with he | he
          · exact hbefore e he
          · obtain ⟨b, hb, rfl⟩ := List.mem_map.mp he
            rintro rfl
            exact ha (List.mem_eraseDups.mp hb)

theorem foldl_enter_flags (h : Fresh slots s) :
    s.arg.aliases.foldl (enter s.index) (ofSlots groupCount slots).flags =
      (ofSlots groupCount (slots ++ [s])).flags := by
  have hfresh : ∀ e ∈ (ofSlots groupCount slots).flags, e.1 ∉ s.arg.aliases := by
    intro e he
    obtain ⟨⟨a, t⟩, hentry, rfl⟩ := List.mem_map.mp he
    obtain ⟨t', ht', hin⟩ := List.mem_flatMap.mp hentry
    obtain ⟨b, hb, heq⟩ := List.mem_map.mp hin
    cases heq
    exact h.spellings _ ht' a (List.mem_eraseDups.mp hb)
  rw [foldl_enter hfresh]
  simp [ofSlots, Grammar.flagEntries]

theorem modify_groups (groupCount : Nat) (slots : List Slot) (s : Slot) :
    (match s.arg.group with
      | some k => (ofSlots groupCount slots).groups.modify k (· ++ [s.index])
      | none => (ofSlots groupCount slots).groups) =
      (ofSlots groupCount (slots ++ [s])).groups := by
  cases hgroup : s.arg.group with
  | none => simp [ofSlots, hgroup]
  | some k =>
      -- Group by group: the one at `k` has `s` as its last member, the others have the same members.
      apply List.ext_getElem?
      intro j
      have hrange : ∀ i, (List.range groupCount)[j]? = some i → i = j := by
        intro i hi
        obtain ⟨_, rfl⟩ := List.getElem?_eq_some_iff.mp hi
        simp
      simp only [ofSlots, List.getElem?_modify, List.getElem?_map]
      cases hj : (List.range groupCount)[j]? with
      | none => rfl
      | some i =>
          obtain rfl := hrange i hj
          by_cases hk : k = i
          · subst hk
            simp [hgroup]
          · simp [hgroup, hk]

/-- **Entering one more argument gives the tables with it.** -/
theorem add_ofSlots (h : Fresh slots s) :
    (ofSlots groupCount slots).add s = ofSlots groupCount (slots ++ [s]) := by
  have hpositionals : (if s.arg.isFlag then (ofSlots groupCount slots).positionals
      else (ofSlots groupCount slots).positionals ++ [s.index]) =
      (ofSlots groupCount (slots ++ [s])).positionals := by
    cases hflag : s.arg.isFlag <;> simp [ofSlots, hflag]
  have hdispatch : (if s.arg.isDispatch then some s.index else (ofSlots groupCount slots).dispatch) =
      (ofSlots groupCount (slots ++ [s])).dispatch := by
    cases hdispatch : s.arg.isDispatch with
    | false => simp [ofSlots, hdispatch]
    | true =>
        have hnone : slots.find? (fun t => t.arg.isDispatch) = none := by
          rw [List.find?_eq_none]
          intro t ht htrue
          simp [h.dispatch t ht htrue] at hdispatch
        simp [ofSlots, hnone, hdispatch]
  have hnegative : ((ofSlots groupCount slots).negativeNumbers ||
      s.arg.aliases.any isNegativeNumber) =
      (ofSlots groupCount (slots ++ [s])).negativeNumbers := by
    have hentries : (Grammar.flagEntries s).any (fun e => isNegativeNumber e.1) =
        s.arg.aliases.any isNegativeNumber := by
      rw [Bool.eq_iff_iff]
      simp [Grammar.flagEntries]
    simp [ofSlots, hentries]
  unfold add
  rw [foldl_enter_flags h, hpositionals, hdispatch, modify_groups, hnegative]

/-- **Tables filled argument by argument are those computed from all arguments**, if each argument is
new to those before it. -/
theorem foldl_add (h : ∀ before s after, slots = before ++ s :: after → Fresh before s) :
    slots.foldl add (empty groupCount) = ofSlots groupCount slots := by
  induction slots using List.reverseRecOn with
  | nil => simp [ofSlots, empty]
  | append_singleton slots s ih =>
      have hbefore : ∀ before t after, slots = before ++ t :: after → Fresh before t := by
        intro before t after hslots
        exact h before t (after ++ [s]) (by simp [hslots])
      rw [List.foldl_append, ih hbefore]
      exact add_ofSlots (h slots s [] rfl)

end Registry

/-! ## Built grammars -/

namespace Grammar

/-- The tables that a grammar's arguments are looked up in. -/
def registry (g : Grammar) : Registry :=
  { flags := g.flagTable.map fun e => (e.1, e.2.index)
    positionals := g.positionals.map (·.index)
    dispatch := g.dispatch?.map (·.index)
    groups := (List.range g.groups.length).map fun k => (g.groupMembers k).map (·.index)
    negativeNumbers := g.hasNegativeNumberFlags }

theorem build_fresh (h : spec.build = .ok g) {before after : List Slot}
    (hslots : g.slots = before ++ s :: after) : Registry.Fresh before s := by
  have hnodup := hslots ▸ g.slots_nodup
  have hs : s ∈ g.slots := by simp [hslots]
  have hearlier : ∀ t ∈ before, t ∈ g.slots := fun t ht => by simp [hslots, ht]
  have hne : ∀ t ∈ before, t ≠ s := by
    intro t ht heq
    exact (List.nodup_append.mp hnodup).2.2 t ht s List.mem_cons_self heq
  constructor
  · intro t ht a hta hsa
    exact hne t ht (build_spellingsDistinct h (hearlier t ht) hs hta hsa)
  · intro t ht htrue
    by_contra hdispatch
    have hsd : s.arg.isDispatch = true := by simpa using hdispatch
    have ht' := (build_dispatch_eq_some_iff h).mpr ⟨hearlier t ht, htrue⟩
    have hs' := (build_dispatch_eq_some_iff h).mpr ⟨hs, hsd⟩
    exact hne t ht (Option.some.inj (ht'.symm.trans hs'))

/-- **The tables of a built grammar are those filled as its arguments are put one after the other.** -/
theorem build_filled (h : spec.build = .ok g) :
    g.slots.foldl Registry.add (Registry.empty g.groups.length) = g.registry :=
  Registry.foldl_add fun _ _ _ => build_fresh h

end Grammar

end TabCompletion
