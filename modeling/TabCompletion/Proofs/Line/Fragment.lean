import TabCompletion.Proofs.Line.Boundary

/-!
# The word under the cursor beside the text it replaces

A candidate for the last word replaces the text from `begidx` on, the region. The two come from
different machines, the word from the reader and the region from the scanner. Here it is said
exactly when they are the same text, and when there is no word at all.

The machines part ways at comments, which only the reader knows, and at white space other than
spaces, tabs and line feeds, which only the scanner takes as the end of a word.
-/

namespace TabCompletion.Line

/-- How a region without quotes and backslashes is read after the text before it: it is the last
word

* between words, unless it begins a comment;
* within quotes, which are then left open, so that the line is split at white space;
* within a comment, or where it begins one, only if the word before happens to be the same text;

and never where a word that was begun before goes on. -/
def ReadsRegion (before region : List Char) : Prop :=
  match Place.between.run before with
  | (.between, words) => region.head? ≠ some '#' ∨ words.getLast? = some region
  | (.comment, words) => words.getLast? = some region
  | (.word _, _) => False
  | _ => True

/-- Where a reader can stand after white space that the scanner found outside quotes. -/
inductive AfterBlank : Place → Prop
  | between : AfterBlank .between
  | comment : AfterBlank .comment
  | word (c : Char) (read : List Char) : AfterBlank (.word (c :: read))
  | single (read : List Char) : AfterBlank (.single read)
  | double (read : List Char) : AfterBlank (.double read)

/-- A reader that is compatible with a scanner outside quotes is not after a backslash, so white
space ends a word, goes into one or changes nothing. -/
theorem afterBlank_step {b : Boundary} {p : Place} {c : Char} (hb : b.AtRest)
    (h : b.Compatible p) (hc : Text.isBlank c = true) : AfterBlank (p.step c).1 := by
  have hm := isMark_of_isBlank hc
  obtain ⟨h₁, h₂, h₃⟩ := isMark_eq_false.mp hm
  cases p with
  | between =>
      have hsharp : c ≠ '#' := by
        rintro rfl
        exact absurd hc (by decide)
      cases hs : isSeparator c with
      | true => simpa [Place.step, hs] using AfterBlank.between
      | false =>
          simpa [Place.step, hs, hsharp, enter_of_not_isMark hm] using AfterBlank.word c []
  | comment =>
      simp only [Place.step]
      split
      · exact AfterBlank.between
      · exact AfterBlank.comment
  | word read =>
      cases hs : isSeparator c with
      | true => simpa [Place.step, hs] using AfterBlank.between
      | false => simpa [Place.step, hs, enter_of_not_isMark hm] using AfterBlank.word c read
  | single read => simpa [Place.step, h₁] using AfterBlank.single (c :: read)
  | double read => simpa [Place.step, h₂, h₃] using AfterBlank.double (c :: read)
  | escaped read | doubleEscaped read =>
      rcases h with h | h
      · rw [hb.2] at h; exact absurd h (by simp)
      · rw [hb.1] at h; exact absurd h (by simp)

/-- Where a reader can stand at the cut. -/
theorem IsCut.afterBlank {cs before region : List Char} (h : IsCut cs before region) :
    AfterBlank (Place.between.run before).1 := by
  rcases h.ends_blank with rfl | ⟨ds, c, rfl, hc, hrest⟩
  · exact AfterBlank.between
  · rw [Place.run_append]
    exact afterBlank_step hrest (boundary_compatible ds) hc

/-! ## The words of a line with a plain region -/

/-- Split at white space, every line ends in its region. -/
theorem getLast?_words {cs before region : List Char} (h : IsCut cs before region)
    (hne : region ≠ []) (hb : ∀ c ∈ region, Text.isBlank c = false) :
    (Text.words cs).getLast? = some region := by
  obtain ⟨d, ds, rfl⟩ := List.exists_cons_of_ne_nil hne
  have hregion := Text.words_of_not_blank hb
  rcases h.ends_blank with rfl | ⟨es, c, rfl, hc, -⟩
  · rw [h.append, List.nil_append, hregion]
    rfl
  · rw [h.append, List.append_assoc, List.singleton_append, Text.words_append_blank hc, hregion]
    simp

/-- The words that a plain region makes, by the place before it. -/
def wordsOfRegion (region : List Char) : Place → Option (List (List Char))
  | .between => if region.head? = some '#' then some [] else some [region]
  | .comment => some []
  | .word read => some [read.reverse ++ region]
  | _ => none

/-- What a reader makes of a plain region. -/
theorem splitFrom_region {p : Place} (hp : AfterBlank p) {region : List Char} (hne : region ≠ [])
    (hm : ∀ c ∈ region, isMark c = false) (hb : ∀ c ∈ region, Text.isBlank c = false) :
    splitFrom p region = wordsOfRegion region p := by
  have hs : ∀ c ∈ region, isSeparator c = false := fun c hc => isSeparator_eq_false (hb c hc)
  have hcomment : ∀ cs, (∀ c ∈ cs, Text.isBlank c = false) → splitFrom .comment cs = some [] := by
    intro cs hcs
    refine splitFrom_of_run (Place.run_comment ?_)
    rintro c hc rfl
    exact absurd (hcs _ hc) (by decide)
  have hword : ∀ read, splitFrom (.word read) region = some [read.reverse ++ region] := by
    intro read
    rw [splitFrom_of_run (Place.run_word_of_plain hs hm read)]
    simp [Place.finish]
  cases hp with
  | between =>
      obtain ⟨c, cs, rfl⟩ := List.exists_cons_of_ne_nil hne
      by_cases hc : c = '#'
      · subst hc
        have hstep : Place.between.step '#' = (.comment, none) := rfl
        rw [splitFrom_cons, hstep, hcomment cs fun d hd => hb d (by simp [hd])]
        rfl
      · have hstep := Place.step_between (hs c (by simp)) hc
        rw [splitFrom_cons, hstep, ← splitFrom_cons, hword]
        simp [wordsOfRegion, hc]
  | comment => exact hcomment region hb
  | word c read => exact hword (c :: read)
  | single read =>
      have hquote : ∀ c ∈ region, c ≠ '\'' := fun c hc => (isMark_eq_false.mp (hm c hc)).1
      rw [splitFrom_of_run (Place.run_single hquote read)]
      rfl
  | double read =>
      rw [splitFrom_of_run (Place.run_double hm read)]
      rfl

/-- Without quotes and backslashes in the region, the words of a line are those ended before it and
what a reader makes of it, or the words between white space. -/
theorem IsCut.getLast?_split {cs before region : List Char} (h : IsCut cs before region)
    (hne : region ≠ []) (hm : ∀ c ∈ region, isMark c = false) :
    ((split (closed cs)).getD (Text.words cs)).getLast? = some region ↔
      ReadsRegion before region := by
  obtain ⟨⟨hquote, -⟩, hb⟩ := h.region_plain hm
  have hlast := getLast?_words h hne hb
  have hsplit : split (closed cs) =
      (splitFrom (Place.between.run before).1 region).map ((Place.between.run before).2 ++ ·) := by
    rw [closed, hquote, Option.toList_none, List.append_nil, split, h.append, splitFrom_append]
  have hp := h.afterBlank
  rw [splitFrom_region hp hne hm hb] at hsplit
  rw [hsplit]
  unfold ReadsRegion
  generalize Place.between.run before = q at hp ⊢
  obtain ⟨p, words⟩ := q
  cases hp with
  | between =>
      simp only [wordsOfRegion]
      split
      · next hsharp => simp [hsharp]
      · next hsharp => simp [hsharp]
  | comment => simp [wordsOfRegion]
  | word c read =>
      -- The word goes on with the region and is longer than it.
      simp only [wordsOfRegion, Option.map_some, Option.getD_some, List.getLast?_append,
        List.getLast?_singleton, Option.some_or, Option.some.injEq, iff_false]
      intro heq
      have hlen := congrArg List.length heq
      simp only [List.length_append, List.length_reverse, List.length_cons] at hlen
      omega
  | single read | double read => simpa [wordsOfRegion] using hlast

/-! ## The fragment -/

/-- The region is empty exactly where the scanner stands at its start. -/
theorem IsCut.region_eq_nil_iff {cs before region : List Char} (h : IsCut cs before region) :
    (boundary cs).begidx = (boundary cs).position ↔ region = [] :=
  begidx_eq_position_iff h.append h.begidx

/-- There is no word exactly if the region is not empty and the line holds separators and comments
only. -/
theorem IsCut.words_eq_nil_iff {head : String} {before region : List Char}
    (h : IsCut head.toList before region) :
    (splitForCompletion head).words = [] ↔
      region ≠ [] ∧ ∀ l ∈ (closed head.toList).splitOn '\n', isIdle l = true := by
  rw [splitForCompletion_words, ← split_eq_nil_iff, List.append_eq_nil_iff, List.map_eq_nil_iff]
  by_cases hr : region = []
  · simp [h.region_eq_nil_iff.mpr hr, hr]
  · rw [if_neg fun heq => hr (h.region_eq_nil_iff.mp heq)]
    cases hs : split (closed head.toList) with
    | some words => simp [hr]
    | none =>
        -- A line of white space alone has an empty region, so there is a word between white space.
        have hwords : Text.words head.toList ≠ [] := by
          intro hnil
          have hblank := Text.words_eq_nil_iff.mp hnil
          rw [h.append] at hblank
          have hm : ∀ c ∈ region, isMark c = false := fun c hc =>
            isMark_of_isBlank (hblank c (List.mem_append_right _ hc))
          obtain ⟨c, ds, rfl⟩ := List.exists_cons_of_ne_nil hr
          have hc := (h.region_plain hm).2 c (by simp)
          rw [hblank c (by simp)] at hc
          exact absurd hc (by simp)
        simp [hwords]

/-- A plain region is the last word exactly if it is empty or the reader reads it. -/
theorem IsCut.getLast?_eq_region_iff {head : String} {before region : List Char}
    (h : IsCut head.toList before region) (hm : ∀ c ∈ region, isMark c = false) :
    (splitForCompletion head).words.getLast? = some (String.ofList region) ↔
      region = [] ∨ ReadsRegion before region := by
  rw [splitForCompletion_words]
  by_cases hr : region = []
  · subst hr
    simp [h.region_eq_nil_iff.mpr rfl]
  · rw [if_neg fun heq => hr (h.region_eq_nil_iff.mp heq), List.append_nil, List.getLast?_map,
      ← h.getLast?_split hr hm]
    cases ((split (closed head.toList)).getD (Text.words head.toList)).getLast? with
    | none => simp [hr]
    | some w => simp [hr, String.ofList_inj]

/-- **When the word under the cursor is the text it replaces.** Every line is cut at `begidx`, which
lies within it. It has no word exactly if it is made of separators and comments and the region is
not empty. A region without quotes and backslashes is the last word exactly if it is empty or the
reader reads it. -/
theorem splitForCompletion_fragment (head : String) :
    ∃ before region, head.toList = before ++ region ∧
      Text.byteLength before = (splitForCompletion head).begidx ∧
      (splitForCompletion head).begidx ≤ Text.byteLength head.toList ∧
      ((splitForCompletion head).words = [] ↔
        region ≠ [] ∧ ∀ l ∈ (closed head.toList).splitOn '\n', isIdle l = true) ∧
      ((∀ c ∈ region, isMark c = false) →
        ((splitForCompletion head).words.getLast? = some (String.ofList region) ↔
          region = [] ∨ ReadsRegion before region)) := by
  obtain ⟨before, region, h⟩ := boundary_cut head.toList
  refine ⟨before, region, h.append, h.begidx, ?_, h.words_eq_nil_iff, h.getLast?_eq_region_iff⟩
  calc (splitForCompletion head).begidx
      = Text.byteLength before := h.begidx.symm
    _ ≤ Text.byteLength before + Text.byteLength region := Nat.le_add_right _ _
    _ = Text.byteLength head.toList := by rw [h.append, Text.byteLength_append]

/-- A region that begins with a number sign is lost: the word before it stands in its place. -/
theorem commented_region_lost :
    "a #b".toList = "a ".toList ++ "#b".toList ∧
      Text.byteLength "a ".toList = (splitForCompletion "a #b").begidx ∧
      (∀ c ∈ "#b".toList, isMark c = false) ∧
      (splitForCompletion "a #b").words.getLast? = some "a" := by
  refine ⟨by decide, by decide, ?_, by decide⟩
  simp [isMark]

end TabCompletion.Line
