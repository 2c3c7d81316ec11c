import TabCompletion.Proofs.Replay.Refusal
import TabCompletion.Proofs.Resolve.Descent

/-!
# Abbreviated flags

A word that is no spelling of a flag may begin some. Where abbreviation is allowed it stands for a flag
just if it begins one spelling only (`SpellingsDistinct.matchFlag?_eq_some_iff`). That spelling is read as
a flag wherever the word is (`looksLikeFlag_of_begins`), so that either may stand for the other in every
line; a word that stands for no flag does nothing but end the values of the active one
(`abbreviation_means_its_flag`).
-/

namespace TabCompletion

variable {g : Grammar} {spec : GrammarSpec} {s : Replay} {word a : String} {f : Slot}

/-! ## What a word may stand for -/

namespace Grammar

def Begins (g : Grammar) (word a : String) : Prop :=
  a ∈ g.spellings ∧ Text.beginsWith a word = true

/-- The word begins one spelling and no other. -/
structure Abbreviates (g : Grammar) (word a : String) : Prop where
  begins : g.Begins word a
  only : ∀ b, g.Begins word b → b = a

theorem flag?_eq_none (h : word ∉ g.spellings) : g.flag? word = none := by
  cases hf : g.flag? word with
  | none => rfl
  | some f => exact absurd (mem_spellings.mpr ⟨f, mem_flagTable_of_flag? hf⟩) h

theorem SpellingsDistinct.matchFlag?_spelling (hg : g.SpellingsDistinct) (hf : (a, f) ∈ g.flagTable) :
    g.matchFlag? a = some f := by
  rw [matchFlag?, hg.flag?_eq_some_iff.mpr (mem_flagTable.mp hf)]

theorem Abbreviates.candidates_eq (h : g.Abbreviates word a) (hg : g.SpellingsDistinct)
    (hf : (a, f) ∈ g.flagTable) :
    (g.flagTable.filter fun e => Text.beginsWith e.1 word) = [(a, f)] := by
  -- A spelling stands in the table once, so that it is enough to compare the members.
  rw [← List.perm_singleton, List.perm_ext_iff_of_nodup (g.flagTable_nodup.filter _)
    (List.nodup_singleton _)]
  rintro ⟨b, k⟩
  rw [List.mem_filter, List.mem_singleton]
  constructor
  · rintro ⟨hk, hbegins⟩
    obtain rfl := h.only b ⟨mem_spellings.mpr ⟨k, hk⟩, hbegins⟩
    obtain ⟨hkslot, hbk⟩ := mem_flagTable.mp hk
    obtain ⟨hfslot, hbf⟩ := mem_flagTable.mp hf
    rw [hg hkslot hfslot hbk hbf]
  · intro heq
    cases heq
    exact ⟨hf, h.begins.2⟩

/-- **A word that is no spelling stands for the flag whose spelling it abbreviates**, and for none where
it abbreviates none or abbreviation is not allowed. -/
theorem SpellingsDistinct.matchFlag?_eq_some_iff (hg : g.SpellingsDistinct)
    (hnew : word ∉ g.spellings) :
    g.matchFlag? word = some f ↔
      g.allowAbbrev = true ∧ ∃ a, g.Abbreviates word a ∧ (a, f) ∈ g.flagTable := by
  simp only [matchFlag?, flag?_eq_none hnew]
  constructor
  · intro h
    split at h
    · next habbrev =>
        split at h
        · next e he =>
            cases h
            have hmem : e ∈ g.flagTable.filter fun e => Text.beginsWith e.1 word := by simp [he]
            obtain ⟨hin, hbegins⟩ := List.mem_filter.mp hmem
            refine ⟨habbrev, e.1, ⟨⟨mem_spellings.mpr ⟨e.2, hin⟩, hbegins⟩, ?_⟩, hin⟩
            rintro b ⟨hb, hbegins⟩
            obtain ⟨k, hk⟩ := mem_spellings.mp hb
            have hother : (b, k) ∈ g.flagTable.filter fun e => Text.beginsWith e.1 word :=
              List.mem_filter.mpr ⟨hk, hbegins⟩
            rw [he, List.mem_singleton] at hother
            rw [← hother]
        · contradiction
    · contradiction
  · rintro ⟨habbrev, a, h, hf⟩
    simp only [habbrev, if_true, h.candidates_eq hg hf]

/-- The word stands for no flag: abbreviation is not allowed, or the word begins no spelling, or it begins
two. -/
def Unresolved (g : Grammar) (word : String) : Prop :=
  g.allowAbbrev = false ∨ (∀ a, ¬ g.Begins word a) ∨ ∃ a b, a ≠ b ∧ g.Begins word a ∧ g.Begins word b

theorem Unresolved.matchFlag?_eq_none (h : g.Unresolved word) (hg : g.SpellingsDistinct)
    (hnew : word ∉ g.spellings) : g.matchFlag? word = none := by
  cases hmatch : g.matchFlag? word with
  | none => rfl
  | some f =>
      obtain ⟨habbrev, c, hc, -⟩ := (hg.matchFlag?_eq_some_iff hnew).mp hmatch
      rcases h with hoff | hnone | ⟨a, b, hne, ha, hb⟩
      · rw [hoff] at habbrev
        contradiction
      · exact absurd hc.begins (hnone c)
      · exact absurd ((hc.only a ha).trans (hc.only b hb).symm) hne

/-! ## Words that look like flags -/

theorem looksLikeFlag_iff :
    g.looksLikeFlag word = true ↔
      (∃ c d cs, word.toList = c :: d :: cs ∧ g.isPrefixChar c = true) ∧
        (isNegativeNumber word = true → g.hasNegativeNumberFlags = true) ∧ ' ' ∉ word.toList := by
  unfold looksLikeFlag
  split
  · next c d cs hword =>
      cases hnegative : isNegativeNumber word <;> simp [hword, and_assoc]
  · next hshort =>
      constructor
      · intro h
        contradiction
      · rintro ⟨⟨c, d, cs, hword, -⟩, -⟩
        exact absurd hword (hshort c d cs)

/-- **A spelling is read as a flag where a beginning of it is**, if it has no space: a spelling that is a
negative number is one of those that let negative numbers be flags. -/
theorem looksLikeFlag_of_begins (hlook : g.looksLikeFlag word = true) (h : g.Begins word a)
    (hspace : ' ' ∉ a.toList) : g.looksLikeFlag a = true := by
  obtain ⟨⟨c, d, cs, hword, hchar⟩, -⟩ := looksLikeFlag_iff.mp hlook
  obtain ⟨hspelling, hbegins⟩ := h
  obtain ⟨rest, ha⟩ := List.isPrefixOf_iff_prefix.mp hbegins
  refine looksLikeFlag_iff.mpr ⟨⟨c, d, cs ++ rest, ?_, hchar⟩, ?_, hspace⟩
  · rw [← ha, hword, List.cons_append, List.cons_append]
  · intro hnegative
    obtain ⟨f, hf⟩ := mem_spellings.mp hspelling
    exact List.any_eq_true.mpr ⟨(a, f), hf, hnegative⟩

/-- What begins the end of options, and looks like a flag, is the end of options. -/
theorem ne_endOfOptions_of_begins (hlook : g.looksLikeFlag word = true) (hne : word ≠ endOfOptions)
    (h : g.Begins word a) : a ≠ endOfOptions := by
  rintro rfl
  obtain ⟨⟨c, d, cs, hword, -⟩, -⟩ := looksLikeFlag_iff.mp hlook
  obtain ⟨rest, hrest⟩ := List.isPrefixOf_iff_prefix.mp h.2
  have hend : endOfOptions.toList = ['-', '-'] := rfl
  simp only [hend, hword, List.cons_append, List.cons.injEq] at hrest
  obtain ⟨rfl, rfl, hnil⟩ := hrest
  obtain ⟨rfl, -⟩ := List.append_eq_nil_iff.mp hnil
  exact hne (String.toList_inj.mp (hword.trans hend.symm))

end Grammar

/-! ## Reading either -/

namespace Replay

/-- Words that stand for the same flag, or both for none, are read alike as flags. -/
theorem feed_congr (hword : s.reading g word = .flag) (ha : s.reading g a = .flag)
    (hmatch : g.matchFlag? word = g.matchFlag? a) : s.feed g word = s.feed g a := by
  simp only [feed, hword, ha, feedFlag, hmatch]

/-- Reading a flag that the grammar does not have ends the values of the active flag, if it has enough. -/
theorem feed_of_unmatched (hread : s.reading g word = .flag) (hmatch : g.matchFlag? word = none) :
    (∃ p, s.flag = some p ∧ p.isUnfinished = true ∧ s.feed g word = .error p.unfinished) ∨
      s.feed g word = .ok (.next { s with flag := none }) := by
  cases hdone : s.checkFlag with
  | error e =>
      obtain ⟨p, hp, hfew, rfl⟩ := checkFlag_eq_error.mp hdone
      exact Or.inl ⟨p, hp, hfew, by simp only [feed, hread, hdone]⟩
  | ok u =>
      right
      simp only [feed, hread, hdone, feedFlag, hmatch, Except.map]

end Replay

/-! ## Completing either -/

namespace Grammar

open Replay (feedAll start)

variable {top : Grammar} {down : Descent} {host : Host} {parents : ArgTokens}
  {request : CompletionRequest} {pre rest : List String} {text : String}

/-- A word that does not hand over may be replaced by one that is read alike. -/
theorem resolveFrom_congr (hfeed : s.feed g word = s.feed g a)
    (hstay : ∀ child, s.feed g word ≠ .ok (.delegate child)) :
    resolveFrom host request g parents s (word :: rest) =
      resolveFrom host request g parents s (a :: rest) := by
  cases rest with
  | nil =>
      -- The last word is not read; the request says what is completed.
      rfl
  | cons next rest =>
      rw [resolveFrom, resolveFrom, ← hfeed]
      cases hfed : s.feed g word with
      | error e => rfl
      | ok fed =>
          cases fed with
          | next s₁ => rfl
          | delegate child => exact absurd hfed (hstay child)

/-- Whether an empty word was left out after two words does not depend on which they are. -/
theorem normalizeWords_cons_congr (hword : word ≠ "") (ha : a ≠ "") :
    ∃ tail, normalizeWords (word :: rest) text = word :: tail ∧
      normalizeWords (a :: rest) text = a :: tail := by
  -- The last word decides, which is one of the two only if nothing follows them; neither is empty.
  by_cases hrest : rest = []
  · subst hrest
    refine ⟨if text.isEmpty then [""] else [], ?_, ?_⟩
    · by_cases htext : text.isEmpty <;> simp [normalizeWords, htext, hword]
    · by_cases htext : text.isEmpty <;> simp [normalizeWords, htext, ha]
  · exact ⟨normalizeWords rest text, normalizeWords_append [word] hrest, normalizeWords_append [a] hrest⟩

/-- **In a line a word may be replaced by one that is read alike where it stands.** -/
theorem tryResolve_congr (hdown : top.descend (start top) pre = .ok down)
    (hfeed : down.state.feed down.grammar word = down.state.feed down.grammar a)
    (hstay : ∀ child, down.state.feed down.grammar word ≠ .ok (.delegate child))
    (hword : word ≠ "") (ha : a ≠ "") (command : String) :
    top.tryResolve host parents (command :: (pre ++ word :: rest)) request =
      top.tryResolve host parents (command :: (pre ++ a :: rest)) request := by
  obtain ⟨tail, htail, htail'⟩ : ∃ tail, normalizeWords (word :: rest) request.text = word :: tail ∧
    normalizeWords (a :: rest) request.text = a :: tail := normalizeWords_cons_congr hword ha
  have hnormalize : ∀ b, normalizeWords (command :: (pre ++ b :: rest)) request.text =
      command :: (pre ++ normalizeWords (b :: rest) request.text) := by
    intro b
    rw [← List.cons_append, normalizeWords_append _ (List.cons_ne_nil b rest), List.cons_append]
  unfold tryResolve
  rw [hnormalize, hnormalize, htail, htail']
  show resolveFrom host request top parents (start top) (pre ++ word :: tail) =
    resolveFrom host request top parents (start top) (pre ++ a :: tail)
  rw [resolveFrom_of_descend hdown (List.cons_ne_nil _ _),
    resolveFrom_of_descend hdown (List.cons_ne_nil _ _)]
  exact resolveFrom_congr hfeed hstay

/-- **An abbreviation means its flag, and what stands for no flag means nothing.** In the state after a run
of a built grammar, where flags are read, let a word look like a flag and be no spelling of one and not the
end of options. If abbreviation is allowed and the word begins one spelling only, and that has no space,
reading either is reading the other, and so is completing a line with either at this place, in the
grammar itself or where it is nested. If the word stands for no flag, reading it is refused because the
active flag has too few values, or ends that flag's values and does nothing else. -/
theorem abbreviation_means_its_flag {words : List String} (hbuild : spec.build = .ok g)
    (hrun : feedAll g (start g) words = .ok (.next s)) (hon : s.flagsOff = false)
    (hlook : g.looksLikeFlag word = true) (hne : word ≠ endOfOptions) (hnew : word ∉ g.spellings) :
    (∀ a, g.allowAbbrev = true → g.Abbreviates word a → ' ' ∉ a.toList →
      s.feed g word = s.feed g a ∧
        ∀ (top : Grammar) pre levels, top.descend (start top) pre = .ok ⟨levels, g, s⟩ →
          ∀ host parents command rest request,
            top.tryResolve host parents (command :: (pre ++ word :: rest)) request =
              top.tryResolve host parents (command :: (pre ++ a :: rest)) request) ∧
    (g.Unresolved word →
      (∃ p, s.flag = some p ∧ p.isUnfinished = true ∧ s.feed g word = .error p.unfinished) ∨
        s.feed g word = .ok (.next { s with flag := none })) := by
  have hg := build_spellingsDistinct hbuild
  have hopen := (Replay.feedAll_coherent hrun).isOpen hon
  have hread : s.reading g word = .flag := Replay.reading_of_looksLikeFlag hopen hon hne hlook
  constructor
  · intro a habbrev hab hspace
    have hlook' := looksLikeFlag_of_begins hlook hab.begins hspace
    have hne' := ne_endOfOptions_of_begins hlook hne hab.begins
    have hread' : s.reading g a = .flag := Replay.reading_of_looksLikeFlag hopen hon hne' hlook'
    obtain ⟨f, hf⟩ := mem_spellings.mp hab.begins.1
    have hmatch : g.matchFlag? word = g.matchFlag? a := by
      rw [hg.matchFlag?_spelling hf, hg.matchFlag?_eq_some_iff hnew]
      exact ⟨habbrev, a, hab, hf⟩
    have hfeed : s.feed g word = s.feed g a := Replay.feed_congr hread hread' hmatch
    refine ⟨hfeed, ?_⟩
    intro top pre levels hdown host parents command rest request
    refine tryResolve_congr hdown hfeed ?_ ?_ ?_ command
    · intro child hchild
      have hpositional := (Replay.feed_delegate_iff.mp hchild).1
      rw [hread] at hpositional
      contradiction
    · rintro rfl
      contradiction
    · rintro rfl
      contradiction
  · intro hunresolved
    exact Replay.feed_of_unmatched hread (hunresolved.matchFlag?_eq_none hg hnew)

/-- The request for a flag after one that may have been abbreviated. -/
def nestedFlagRequest : CompletionRequest :=
  { text := "--", line := "vault list --tag x --al --", begidx := 24, endidx := 26 }

theorem al_means_all_and_ta_nothing :
    ∃ c g s, Replay.listing.build = .ok c ∧ (tagging "list" c).build = .ok g ∧
      feedAll c (start c) ["--tag", "x"] = .ok (.next s) ∧ s.feed c "--al" = s.feed c "--all" ∧
      g.tryResolve {} .empty ["vault", "list", "--tag", "x", "--al", "--"] nestedFlagRequest =
        g.tryResolve {} .empty ["vault", "list", "--tag", "x", "--all", "--"] nestedFlagRequest ∧
      s.feed c "--ta" = .ok (.next { s with flag := none }) := by
  obtain ⟨c, g, s, levels, hc, hg, hrun, hdown, hon, hflag, habbrev, hal, hta, hspellings⟩ :
      ∃ c g s levels, Replay.listing.build = .ok c ∧ (tagging "list" c).build = .ok g ∧
        feedAll c (start c) ["--tag", "x"] = .ok (.next s) ∧
        g.descend (start g) ["list", "--tag", "x"] = .ok ⟨levels, c, s⟩ ∧ s.flagsOff = false ∧
        s.flag = none ∧ c.allowAbbrev = true ∧ c.looksLikeFlag "--al" = true ∧
        c.looksLikeFlag "--ta" = true ∧
        c.spellings = ["--tag", "--all", "-a", "--json", "--table", "--long"] :=
    ⟨_, _, _, _, rfl, rfl, rfl, rfl, rfl, rfl, rfl, rfl, rfl, rfl⟩
  have hall : c.Abbreviates "--al" "--all" := by
    have hone : ∀ b ∈ ["--tag", "--all", "-a", "--json", "--table", "--long"],
        Text.beginsWith b "--al" = true → b = "--all" := by decide
    rw [← hspellings] at hone
    exact ⟨⟨by simp [hspellings], by decide⟩, fun b hb => hone b hb.1 hb.2⟩
  have htwo : c.Unresolved "--ta" :=
    Or.inr (Or.inr ⟨"--tag", "--table", by decide, ⟨by simp [hspellings], by decide⟩,
      ⟨by simp [hspellings], by decide⟩⟩)
  obtain ⟨hmeans, -⟩ :=
    abbreviation_means_its_flag hc hrun hon hal (by decide) (by simp [hspellings])
  obtain ⟨hfeed, hcomplete⟩ := hmeans "--all" habbrev hall (by decide)
  obtain ⟨-, hnothing⟩ :=
    abbreviation_means_its_flag hc hrun hon hta (by decide) (by simp [hspellings])
  refine ⟨c, g, s, hc, hg, hrun, hfeed, hcomplete g _ levels hdown _ _ _ _ _, ?_⟩
  rcases hnothing htwo with ⟨p, hp, -⟩ | hended
  · rw [hflag] at hp
    contradiction
  · exact hended

end Grammar

end TabCompletion
