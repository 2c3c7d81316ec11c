import Mathlib.Data.List.TakeWhile
import TabCompletion.Proofs.Grammar.WellFormed
import TabCompletion.Proofs.Replay.FlagsOff

/-!
# Negative numbers

A negative number begins like a flag. `NegativeNumber` is the grammar of such words, and
`isNegativeNumber` tests for it (`isNegativeNumber_iff`). A grammar takes them all for flags if one of
its flags is spelled like one, and for values otherwise (`looksLikeFlag_of_negativeNumber`); so it does
in every state of a run, whether such a word is read or completed.

Main statement: `negative_numbers_alike`.
-/

namespace TabCompletion

variable {g : Grammar} {spec : GrammarSpec} {word : String} {cs ds : List Char}

/-! ## The grammar of negative numbers -/

def IsDigits (cs : List Char) : Prop := cs ≠ [] ∧ ∀ c ∈ cs, c.isDigit = true

/-- A minus sign and digits, or a minus sign, digits if any, a point and digits. -/
inductive NegativeNumber : List Char → Prop where
  | whole {ds : List Char} (hdigits : IsDigits ds) : NegativeNumber ('-' :: ds)
  | fraction {ds es : List Char} (hwhole : ds = [] ∨ IsDigits ds) (hfraction : IsDigits es) :
      NegativeNumber ('-' :: (ds ++ '.' :: es))

theorem isDigits_iff : IsDigits cs ↔ (!cs.isEmpty && allDigits cs) = true := by
  simp [IsDigits, allDigits]

theorem allDigits_iff : allDigits cs = true ↔ cs = [] ∨ IsDigits cs := by
  cases cs <;> simp [IsDigits, allDigits]

theorem ne_point_of_allDigits (h : allDigits ds = true) : ∀ c ∈ ds, (c != '.') = true := by
  intro c hc
  have hdigit : c.isDigit = true := List.all_eq_true.mp h c hc
  rw [bne_iff_ne]
  rintro rfl
  exact absurd hdigit (by decide)

/-- Digits before the first point, and what follows them. -/
theorem takeWhile_ne_point (h : allDigits ds = true) (rest : List Char) :
    (ds ++ '.' :: rest).takeWhile (· != '.') = ds ∧
      (ds ++ '.' :: rest).dropWhile (· != '.') = '.' :: rest := by
  have hne := ne_point_of_allDigits h
  rw [List.takeWhile_append_of_pos hne, List.dropWhile_append_of_pos hne]
  simp

theorem isNegativeNumber_of_negativeNumber (h : NegativeNumber word.toList) :
    isNegativeNumber word = true := by
  unfold isNegativeNumber
  generalize word.toList = cs at h
  cases h with
  | @whole ds hdigits =>
      have hall := allDigits_iff.mpr (Or.inr hdigits)
      have hne := ne_point_of_allDigits hall
      simp only [List.dropWhile_eq_nil_iff.mpr hne, List.takeWhile_eq_self_iff.mpr hne]
      exact isDigits_iff.mp hdigits
  | @fraction ds es hwhole hfraction =>
      have hall := allDigits_iff.mpr hwhole
      obtain ⟨htake, hdrop⟩ := takeWhile_ne_point hall es
      simp only [htake, hdrop, isDigits_iff.mp hfraction, hall, Bool.and_self]

theorem negativeNumber_of_isNegativeNumber (h : isNegativeNumber word = true) :
    NegativeNumber word.toList := by
  unfold isNegativeNumber at h
  split at h
  · next cs hword =>
      rw [hword]
      have hsplit := List.takeWhile_append_dropWhile (p := (· != '.')) (l := cs)
      simp only at h
      split at h
      · next hrest =>
          rw [hrest, List.append_nil] at hsplit
          rw [← hsplit]
          exact .whole (isDigits_iff.mpr h)
      · next p fraction hrest =>
          -- What the whole part stops at is a point.
          have hpoint : (p != '.') = false := by
            have hhead := List.head?_dropWhile_not (· != '.') cs
            rw [hrest] at hhead
            simpa using hhead
          obtain rfl : p = '.' := by simpa using hpoint
          rw [hrest] at hsplit
          rw [Bool.and_eq_true] at h
          rw [← hsplit]
          exact .fraction (allDigits_iff.mp h.2) (isDigits_iff.mpr h.1)
  · contradiction

/-- **The test accepts exactly the negative numbers.** -/
theorem isNegativeNumber_iff : isNegativeNumber word = true ↔ NegativeNumber word.toList :=
  ⟨negativeNumber_of_isNegativeNumber, isNegativeNumber_of_negativeNumber⟩

/-! ## Words like flags -/

/-- A negative number is a minus sign and more, and none of it a space. -/
theorem NegativeNumber.exists_cons_cons (h : NegativeNumber cs) :
    ∃ c rest, cs = '-' :: c :: rest ∧ ' ' ∉ cs := by
  have hspace {ds : List Char} (hds : ds = [] ∨ IsDigits ds) : ' ' ∉ ds := by
    rcases hds with rfl | ⟨-, hdigits⟩
    · exact List.not_mem_nil
    · intro hin
      exact absurd (hdigits ' ' hin) (by decide)
  cases h with
  | @whole ds hdigits =>
      obtain ⟨c, rest, rfl⟩ := List.exists_cons_of_ne_nil hdigits.1
      exact ⟨c, rest, rfl, by simpa using hspace (Or.inr hdigits)⟩
  | @fraction ds es hwhole hfraction =>
      have hds := hspace hwhole
      have hes := hspace (Or.inr hfraction)
      obtain ⟨c, rest, hcons⟩ := List.exists_cons_of_ne_nil (l := ds ++ '.' :: es) (by simp)
      exact ⟨c, rest, by rw [hcons], by simp [hds, hes]⟩

namespace Grammar

/-- **A negative number looks like a flag just if a flag may begin with a minus sign and some flag is
spelled like a negative number.** -/
theorem looksLikeFlag_of_negativeNumber (h : NegativeNumber word.toList) :
    g.looksLikeFlag word = true ↔ g.isPrefixChar '-' = true ∧ g.hasNegativeNumberFlags = true := by
  obtain ⟨c, rest, hcons, hspace⟩ := h.exists_cons_cons
  have htest := isNegativeNumber_iff.mpr h
  rw [hcons] at hspace
  have hnospace : ('-' :: c :: rest).contains ' ' = false := by simpa using hspace
  simp only [looksLikeFlag, hcons, htest, hnospace]
  simp

/-- A negative number is no single prefix character, so it cannot become a flag. -/
theorem isSinglePrefixChar_of_negativeNumber (h : NegativeNumber word.toList) :
    g.isSinglePrefixChar word = false := by
  obtain ⟨c, rest, hcons, -⟩ := h.exists_cons_cons
  simp only [isSinglePrefixChar, hcons]

/-- Some flag is spelled like a negative number. -/
def SpellsNumber (g : Grammar) : Prop := ∃ d ∈ g.args, ∃ a ∈ d.aliases, NegativeNumber a.toList

theorem hasNegativeNumberFlags_iff_spellsNumber : g.hasNegativeNumberFlags = true ↔ g.SpellsNumber := by
  simp only [hasNegativeNumberFlags_iff, isNegativeNumber_iff, SpellsNumber]

/-- Where a flag of a built grammar is spelled like a negative number, flags may begin with a minus
sign, as this one does. -/
theorem build_isPrefixChar_minus (h : spec.build = .ok g) (hspells : g.SpellsNumber) :
    g.isPrefixChar '-' = true := by
  obtain ⟨d, hd, a, ha, hnumber⟩ := hspells
  obtain ⟨s, hs, rfl⟩ := exists_slot hd
  obtain ⟨c, rest, hcons, -⟩ := hnumber.exists_cons_cons
  have hfirst := build_spelling h hs ha
  rw [hcons] at hfirst
  exact hfirst

/-- **In a built grammar negative numbers look like flags just if some flag is spelled like one.** -/
theorem build_looksLikeFlag_iff (h : spec.build = .ok g) (hword : NegativeNumber word.toList) :
    g.looksLikeFlag word = true ↔ g.SpellsNumber := by
  rw [looksLikeFlag_of_negativeNumber hword, hasNegativeNumberFlags_iff_spellsNumber]
  exact and_iff_right_of_imp (build_isPrefixChar_minus h)

/-- A word that looks like no flag and begins like a number is no boundary. -/
theorem not_isBoundary_of_negativeNumber (hword : NegativeNumber word.toList)
    (hlook : g.looksLikeFlag word = false) : ¬ g.IsBoundary word := by
  rintro (rfl | hlook')
  · have htest := isNegativeNumber_iff.mpr hword
    exact absurd htest (by decide)
  · rw [hlook] at hlook'
    contradiction

end Grammar

/-! ## States of a run -/

namespace Replay

variable {s : Replay}

/-- The word is a value wherever it is met: reading does not take it for a flag and refuses it only for
naming no subcommand, and it is completed as a value. -/
structure IsValue (g : Grammar) (s : Replay) (word : String) : Prop where
  reading : s.reading g word ≠ .flag
  feed : ∀ e, s.feed g word = .error e → e = .unknownSubcommand word
  target : s.target g word ≠ .flags
  complete : ∀ host parents (request : CompletionRequest), request.text = word →
    s.complete g host parents request = s.valueAnswer host parents request

/-- The word is a flag, if the grammar has it: reading and completing it end the values of the active
flag, which must have enough of them, and go on with a flag. -/
structure IsFlag (g : Grammar) (s : Replay) (word : String) : Prop where
  reading : s.reading g word = .flag
  feed : s.feed g word = s.checkFlag.bind fun _ => (({ s with flag := none }).feedFlag g word).map .next
  target : s.target g word = .flags
  complete : ∀ host parents (request : CompletionRequest), request.text = word →
    s.complete g host parents request = s.checkFlag.map fun _ => s.completeFlags g word

theorem Coherent.isValue_of_negativeNumber (h : Coherent g s) (hword : NegativeNumber word.toList)
    (hlook : g.looksLikeFlag word = false) : IsValue g s word where
  reading hread := by
    have hb := Grammar.not_isBoundary_of_negativeNumber hword hlook
    exact hb (isBoundary_of_reading (Or.inr hread)).2
  feed e hfeed := h.feed_error_of_value
    (Or.inr (Grammar.not_isBoundary_of_negativeNumber hword hlook)) hfeed
  target ht := by simp [target_eq_flags, hlook] at ht
  complete host parents request htext := by
    subst htext
    apply complete_eq_valueAnswer
    · intro ht
      simp [target_eq_flags, hlook] at ht
    · exact Or.inr (Grammar.isSinglePrefixChar_of_negativeNumber hword)

theorem Coherent.isFlag_of_negativeNumber (h : Coherent g s) (hword : NegativeNumber word.toList)
    (hlook : g.looksLikeFlag word = true) (hon : s.flagsOff = false) : IsFlag g s word := by
  have hend : word ≠ TabCompletion.endOfOptions := by
    rintro rfl
    exact absurd (isNegativeNumber_iff.mpr hword) (by decide)
  have hread : s.reading g word = .flag := (h.reading_eq_flag hend).mpr ⟨hlook, hon⟩
  have htarget : s.target g word = .flags := target_eq_flags.mpr ⟨hlook, hon⟩
  constructor
  · exact hread
  · simp only [Replay.feed, hread]
    cases s.checkFlag <;> rfl
  · exact htarget
  · rintro host parents request rfl
    simp only [Replay.complete, htarget]
    cases s.checkFlag <;> rfl

/-- **A grammar takes all negative numbers alike.** The test for them accepts their grammar and nothing
else. In every state of a run on a built grammar:

- if no flag is spelled like a negative number, every negative number is a value;
- if one is, every negative number is a flag wherever flags are read. -/
theorem negative_numbers_alike :
    (∀ word, isNegativeNumber word = true ↔ NegativeNumber word.toList) ∧
    ∀ spec g, GrammarSpec.build spec = .ok g →
      ∀ words s, feedAll g (start g) words = .ok (.next s) →
        ((∀ d ∈ g.args, ∀ a ∈ d.aliases, ¬ NegativeNumber a.toList) →
          ∀ word : String, NegativeNumber word.toList → IsValue g s word) ∧
        ((∃ d ∈ g.args, ∃ a ∈ d.aliases, NegativeNumber a.toList) →
          ∀ word : String, NegativeNumber word.toList → s.flagsOff = false → IsFlag g s word) := by
  refine ⟨fun word => isNegativeNumber_iff, ?_⟩
  intro spec g hbuild words s hrun
  have hs := feedAll_coherent hrun
  constructor
  · intro hnone word hword
    apply hs.isValue_of_negativeNumber hword
    rw [← Bool.not_eq_true, Grammar.build_looksLikeFlag_iff hbuild hword]
    rintro ⟨d, hd, a, ha, hnumber⟩
    exact hnone d hd a ha hnumber
  · intro hsome word hword hon
    exact hs.isFlag_of_negativeNumber hword ((Grammar.build_looksLikeFlag_iff hbuild hword).mpr hsome) hon

def moving : GrammarSpec :=
  { prog := "move"
    items :=
      [.arg { aliases := ["--slow"], action := .storeTrue },
        .arg { name := some "distance", choices := some (.fixed [⟨.int (-5), none⟩, ⟨.int 5, none⟩]) }] }

def columns : GrammarSpec :=
  { prog := "list"
    items :=
      [.arg { aliases := ["-1"], action := .storeTrue },
        .arg { name := some "path" }] }

theorem minus_five_moves_or_is_flag :
    (∃ g s, moving.build = .ok g ∧ feedAll g (start g) ["--slow"] = .ok (.next s) ∧
      s.flagsOff = false ∧ IsValue g s "-5" ∧ IsValue g s "-.5") ∧
    ∃ g s, columns.build = .ok g ∧ feedAll g (start g) ["a"] = .ok (.next s) ∧
      s.flagsOff = false ∧ IsFlag g s "-5" ∧ IsFlag g s "-.5" := by
  have hwhole : NegativeNumber "-5".toList := isNegativeNumber_iff.mp (by decide)
  have hfraction : NegativeNumber "-.5".toList := isNegativeNumber_iff.mp (by decide)
  constructor
  · obtain ⟨g, s, hbuild, hrun, hon, htest⟩ :
        ∃ g s, moving.build = .ok g ∧ feedAll g (start g) ["--slow"] = .ok (.next s) ∧
          s.flagsOff = false ∧ ∀ d ∈ g.args, ∀ a ∈ d.aliases, isNegativeNumber a ≠ true :=
      ⟨_, _, rfl, rfl, rfl, by decide⟩
    have hnone : ∀ d ∈ g.args, ∀ a ∈ d.aliases, ¬ NegativeNumber a.toList := fun d hd a ha hnumber =>
      htest d hd a ha (isNegativeNumber_iff.mpr hnumber)
    have hvalue := (negative_numbers_alike.2 moving g hbuild _ s hrun).1 hnone
    exact ⟨g, s, hbuild, hrun, hon, hvalue "-5" hwhole, hvalue "-.5" hfraction⟩
  · obtain ⟨g, s, hbuild, hrun, hon, htest⟩ :
        ∃ g s, columns.build = .ok g ∧ feedAll g (start g) ["a"] = .ok (.next s) ∧
          s.flagsOff = false ∧ ∃ d ∈ g.args, ∃ a ∈ d.aliases, isNegativeNumber a = true :=
      ⟨_, _, rfl, rfl, rfl, by decide⟩
    obtain ⟨d, hd, a, ha, hnumber⟩ := htest
    have hflag := (negative_numbers_alike.2 columns g hbuild _ s hrun).2
      ⟨d, hd, a, ha, isNegativeNumber_iff.mp hnumber⟩
    exact ⟨g, s, hbuild, hrun, hon, hflag "-5" hwhole hon, hflag "-.5" hfraction hon⟩

end Replay

end TabCompletion
