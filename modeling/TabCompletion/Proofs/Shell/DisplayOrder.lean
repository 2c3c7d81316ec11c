import TabCompletion.Proofs.Completion.Candidates
import TabCompletion.Proofs.Line.Quoting
import TabCompletion.Proofs.Resolve.Sources
import TabCompletion.Proofs.Shell.Asked

/-!
# Display order with and without descriptions

Two command sets that differ only in descriptions are asked for the same argument by every line
(`SameButDescriptions.asks`). The order in which its candidates are suggested is not decided in the same
place: candidates with descriptions are put in order as the texts that they are, the others as they are
written into the line, which may be in quotes.

Main statement: `order_with_descriptions_iff`.
-/

namespace TabCompletion

/-- The source with no descriptions in its list. -/
def ChoiceSource.bare : ChoiceSource → ChoiceSource
  | fixed choices => .fixed (choices.map fun c => { c with description := none })
  | source => source

namespace CommandSet

variable {set plain described : CommandSet} {host : Host} {line : String} {pos : Nat} {down : Descent}
  {p : Progress}

/-! ## The same argument is asked for -/

def mapSources (f : ChoiceSource → ChoiceSource) (set : CommandSet) : CommandSet :=
  ⟨set.commands.map (·.mapSources f)⟩

theorem engine?_mapSources (f : ChoiceSource → ChoiceSource) (words : List String) :
    (set.mapSources f).engine? words = (set.engine? words).map (·.mapSources f) := by
  have hget (name : String) :
      (set.mapSources f).get? name = (set.get? name).map (·.mapSources f) := by
    have hprog : ((·.prog == name) : Grammar → Bool) ∘ Grammar.mapSources f = (·.prog == name) := by
      funext g
      simp
    rw [get?, mapSources, List.find?_map, hprog, get?]
  unfold engine?
  split
  · split
    · rfl
    · exact hget _
  · rfl

/-- Whatever the choices are, a line asks for the same argument. -/
theorem asks_mapSources (f : ChoiceSource → ChoiceSource) {down : Descent} {p : Progress} :
    (set.mapSources f).Asks line pos down p ↔
      ∃ down' p', set.Asks line pos down' p' ∧ down'.mapSources f = down ∧ p'.mapSources f = p := by
  constructor
  · rintro ⟨⟨g, hengine, hdown⟩, hasked⟩
    rw [engine?_mapSources, Option.map_eq_some_iff] at hengine
    obtain ⟨g', hengine, rfl⟩ := hengine
    rw [Replay.start_mapSources, Grammar.descend_mapSources] at hdown
    cases hdown' : g'.descend (.start g')
        (Grammar.wordsBefore (wordsAt line pos) (requestAt line pos).text) with
    | error e => simp [hdown', Except.map] at hdown
    | ok down' =>
        rw [hdown'] at hdown
        cases hdown
        obtain ⟨p', hasked', rfl⟩ :=
          Option.map_eq_some_iff.mp ((Replay.target_mapSources f _).symm.trans hasked)
        exact ⟨down', p', ⟨⟨g', hengine, hdown'⟩, hasked'⟩, rfl, rfl⟩
  · rintro ⟨down', p', ⟨⟨g, hengine, hdown⟩, hasked⟩, rfl, rfl⟩
    refine ⟨⟨g.mapSources f, ?_, ?_⟩, ?_⟩
    · rw [engine?_mapSources, hengine, Option.map_some]
    · rw [Replay.start_mapSources, Grammar.descend_mapSources, hdown]
      rfl
    · exact (Replay.target_mapSources f _).trans (by rw [hasked, Option.map_some])

theorem scope_mapSources (f : ChoiceSource → ChoiceSource) (down : Descent) :
    (down.mapSources f).scope host = down.scope host := by
  rw [Descent.scope, Descent.mapSources, Grammar.inherit_mapSources]
  rfl

/-- The sets are the same but for the descriptions of listed choices. -/
def SameButDescriptions (plain described : CommandSet) : Prop :=
  plain.mapSources .bare = described.mapSources .bare

/-- **Where one set is asked for a listed argument, the other is asked for the same values**, and the
argument was given the same words already. -/
theorem SameButDescriptions.asks (h : plain.SameButDescriptions described) (host : Host)
    (hasks : plain.Asks line pos down p) (hsub : p.arg.subcommands? = none) {choices : List Choice}
    (hsource : p.arg.choices = some (.fixed choices)) :
    ∃ down' p' choices', described.Asks line pos down' p' ∧ p'.arg.subcommands? = none ∧
      p'.arg.choices = some (.fixed choices') ∧ choices'.map (·.value) = choices.map (·.value) ∧
      (down'.scope host).usedFor p'.arg = (down.scope host).usedFor p.arg := by
  obtain ⟨down', p', hasks', hdown, hp⟩ :=
    (asks_mapSources .bare).mp (h ▸ (asks_mapSources .bare).mpr ⟨down, p, hasks, rfl, rfl⟩)
  have harg : p'.arg.mapSources .bare = p.arg.mapSources .bare := congrArg Progress.arg hp
  have hdest : p'.arg.dest = p.arg.dest := by simpa using congrArg ArgDef.dest harg
  have hsub' : p'.arg.subcommands? = none := by simpa [hsub] using congrArg ArgDef.subcommands? harg
  have hbare : p'.arg.choices.map (·.bare) = some (ChoiceSource.fixed choices).bare := by
    simpa [hsource] using congrArg ArgDef.choices harg
  have hscope : down'.scope host = down.scope host := by
    rw [← scope_mapSources .bare down', hdown, scope_mapSources]
  obtain ⟨source, hsource', hsame⟩ := Option.map_eq_some_iff.mp hbare
  cases source with
  | provider wants choices | completer wants complete => simp [ChoiceSource.bare] at hsame
  | fixed choices' =>
      refine ⟨down', p', choices', hasks', hsub', hsource', ?_, ?_⟩
      · have hvalues := congrArg (List.map Choice.value) (ChoiceSource.fixed.inj hsame)
        simpa [Function.comp_def] using hvalues
      · rw [Scope.usedFor, Scope.usedFor, hscope, hdest]

end CommandSet

/-! ## Where the order is decided -/

namespace Completions

variable {c : Completions} {choices : List Choice} {texts : List String}

/-- The texts that begin with `text` and are not among the values given already. -/
def remainingTexts (texts : List String) (text : String) (used : List String) : List String :=
  texts.filter fun t => decide (text.toList <+: t.toList ∧ t ∉ used)

theorem values_remaining (h : choices.map (·.value) = texts.map .text) (text : String)
    (used : List String) :
    (ofItems (remaining choices text used) false).values = remainingTexts texts text used := by
  have htexts : texts = choices.map (·.value.display) := by
    have := congrArg (List.map ChoiceValue.display) h
    simpa [Function.comp_def, ChoiceValue.display] using this.symm
  rw [htexts, remainingTexts, List.filter_map, values, ofItems, remaining, List.map_map]
  rfl

theorem items_ne_nil (h : 2 ≤ c.values.length) : c.items ≠ [] := by
  intro hnil
  simp [values, hnil] at h

theorem values_sortItems (items : List CompletionItem) :
    (sortItems items).map (·.value) =
      Sorting.stableSortByText Text.lowercase (items.map (·.value)) :=
  Sorting.map_stableSortByText (·.value) Text.lowercase items

/-- Candidates that are not in order yet are ordered as they are written. -/
theorem values_displayOrder_written (h : c.sorted = false) (write : String → String) :
    (c.written write).displayOrder.values =
      Sorting.stableSortByText Text.lowercase (c.values.map write) := by
  have hsorted : (c.written write).sorted = false := h
  rw [displayOrder, hsorted, if_neg Bool.false_ne_true, values, values_sortItems, values, written,
    List.map_map, List.map_map]
  rfl

/-- Candidates that are in order stay in it, however they are written. -/
theorem values_displayOrder_written_of_sorted (h : c.sorted = true) (write : String → String) :
    (c.written write).displayOrder.values = c.values.map write := by
  have hsorted : (c.written write).sorted = true := h
  rw [displayOrder_of_sorted hsorted, values, values, written, List.map_map, List.map_map]
  rfl

end Completions

namespace Scope

variable {scope : Scope} {d : ArgDef Grammar} {request : CompletionRequest} {choices : List Choice}
  {texts : List String}

open Completions (remaining remainingTexts ofItems)

theorem completeArg_eq_withTable (hsub : d.subcommands? = none)
    (hsource : d.choices = some (.fixed choices)) (hvalues : choices.map (·.value) = texts.map .text)
    (hne : texts ≠ []) :
    scope.completeArg d request =
      .ok ((ofItems (remaining choices request.text (scope.usedFor d)) false).withTable scope.host
        d.dest d.descriptiveHeader) := by
  have hnumeric : Completions.allNumeric choices = false := by
    have hall : Completions.allNumeric choices =
        (choices.map (·.value)).all ChoiceValue.isNumeric := by
      rw [List.all_map]
      rfl
    obtain ⟨t, ts, rfl⟩ := List.exists_cons_of_ne_nil hne
    rw [hall, hvalues]
    rfl
  have horder : Completions.orderChoices choices = choices := by
    rw [Completions.orderChoices, hnumeric, if_neg Bool.false_ne_true]
  have hlists : scope.Lists d request.text choices := .fixed hsub hsource
  simp only [completeArg, hlists.candidates_eq, Completions.ofChoices_eq, hnumeric, horder]

/-- What holds of the descriptions of all choices holds of those of the candidates. -/
theorem description_of_mem_ofItems {P : Option String → Prop} (h : ∀ c ∈ choices, P c.description)
    (text : String) (used : List String) :
    ∀ i ∈ (ofItems (remaining choices text used) false).items, P i.description := by
  intro i hi
  obtain ⟨c, hc, rfl⟩ := List.mem_map.mp hi
  exact h c (List.mem_of_mem_filter hc)

/-- Texts without descriptions stay in the order of the list, and are not marked as in order. -/
theorem completeArg_plain (scope : Scope) (request : CompletionRequest)
    (hsub : d.subcommands? = none)
    (hsource : d.choices = some (.fixed choices)) (hvalues : choices.map (·.value) = texts.map .text)
    (hplain : ∀ c ∈ choices, c.description = none) (hne : texts ≠ []) :
    ∃ c, scope.completeArg d request = .ok c ∧ c.sorted = false ∧
      c.values = remainingTexts texts request.text (scope.usedFor d) := by
  refine ⟨_, completeArg_eq_withTable hsub hsource hvalues hne, ?_⟩
  have hitems := description_of_mem_ofItems (P := fun o => o = none) hplain request.text
    (scope.usedFor d)
  rw [Completions.withTable_of_plain hitems]
  exact ⟨rfl, Completions.values_remaining hvalues _ _⟩

/-- Texts with descriptions are put in order, and marked so. -/
theorem completeArg_described (scope : Scope) (request : CompletionRequest)
    (hsub : d.subcommands? = none)
    (hsource : d.choices = some (.fixed choices)) (hvalues : choices.map (·.value) = texts.map .text)
    (hdescribed : ∀ c ∈ choices, c.description.isSome = true)
    (hseveral : 2 ≤ (remainingTexts texts request.text (scope.usedFor d)).length)
    (hmost : (remainingTexts texts request.text (scope.usedFor d)).length ≤
      scope.host.settings.maxItems) :
    ∃ c, scope.completeArg d request = .ok c ∧ c.sorted = true ∧
      c.values = Sorting.stableSortByText Text.lowercase
        (remainingTexts texts request.text (scope.usedFor d)) := by
  have hleft := Completions.values_remaining hvalues request.text (scope.usedFor d)
  have hlength := congrArg List.length hleft
  rw [Completions.values, List.length_map] at hlength
  have hne : texts ≠ [] := by
    rintro rfl
    simp [remainingTexts] at hseveral
  have hall := description_of_mem_ofItems (P := fun o => o.isSome = true) hdescribed request.text
    (scope.usedFor d)
  obtain ⟨hsorted, hitems⟩ := Completions.withTable_of_described hall (hlength ▸ hseveral)
    (hlength ▸ hmost) d.dest d.descriptiveHeader
  refine ⟨_, completeArg_eq_withTable hsub hsource hvalues hne, hsorted, ?_⟩
  rw [Completions.values, hitems, ← hleft]
  exact Completions.values_sortItems _

end Scope

namespace CommandSet

variable {set plain described : CommandSet} {host : Host} {line : String} {pos : Nat} {down : Descent}
  {p : Progress}

/-- The values that are suggested, in their order. -/
def suggestedValues (set : CommandSet) (host : Host) (line : String) (pos : Nat) :
    Except ReversedSpan (List String) :=
  (set.suggest host line pos).1.map fun s => s.map (·.value)

/-- Which values are suggested follows from their display order, unless the word starts after the
cursor. -/
theorem suggestedValues_eq_iff (hne : (plain.complete host line pos).1.completions.items ≠ [])
    (hne' : (described.complete host line pos).1.completions.items ≠ []) :
    described.suggestedValues host line pos = plain.suggestedValues host line pos ↔
      pos < (plain.complete host line pos).1.start ∨
        (described.complete host line pos).1.completions.displayOrder.values =
          (plain.complete host line pos).1.completions.displayOrder.values := by
  have hsuggested (set : CommandSet) (hne : (set.complete host line pos).1.completions.items ≠ []) :
      set.suggestedValues host line pos =
        if pos < (plain.complete host line pos).1.start then
          .error ⟨(plain.complete host line pos).1.start, pos⟩
        else .ok (set.complete host line pos).1.completions.displayOrder.values := by
    have hsome : (set.complete host line pos).1.completions.displayOrder.items.isEmpty = false := by
      rw [List.isEmpty_eq_false_iff, Ne, ← List.length_eq_zero_iff,
        (Completions.displayOrder_perm _).length_eq, List.length_eq_zero_iff]
      exact hne
    have hstart : (set.complete host line pos).1.start = (plain.complete host line pos).1.start := rfl
    unfold suggestedValues suggest
    simp only [hsome, hstart, Bool.not_false, Bool.and_true, decide_eq_true_eq]
    split
    · rfl
    · simp [Except.map, Completions.values, Function.comp_def]
  rw [hsuggested plain hne, hsuggested described hne']
  split
  · next hlt => simp [hlt]
  · next hle => simp [hle]

/-- **Display order with and without descriptions.** Two command sets are the same but for
descriptions; a line asks the first for an argument with a list of texts. Then it asks the second for
an argument with the same texts. If these all have descriptions there and none has one in the first,
and if at least two and not too many of them remain, both sets suggest the same values in the same
order, or neither can suggest any, just if no two of them are in one order as the texts that they are
and in another as they are written into the line. None are where no text has white space. -/
theorem order_with_descriptions_iff (hsame : plain.SameButDescriptions described) (host : Host)
    (hasks : plain.Asks line pos down p) (hsub : p.arg.subcommands? = none) {choices : List Choice}
    (hsource : p.arg.choices = some (.fixed choices)) (texts : List String)
    (htexts : choices.map (·.value) = texts.map .text)
    (hplain : ∀ c ∈ choices, c.description = none) :
    ∃ down' p' choices', described.Asks line pos down' p' ∧
      p'.arg.choices = some (.fixed choices') ∧ choices'.map (·.value) = texts.map .text ∧
      let left := Completions.remainingTexts texts (requestAt line pos).text
        ((down.scope host).usedFor p.arg)
      ((∀ c ∈ choices', c.description.isSome = true) → 2 ≤ left.length →
        left.length ≤ host.settings.maxItems →
        (described.suggestedValues host line pos = plain.suggestedValues host line pos ↔
          pos < (plain.complete host line pos).1.start ∨
            left.Pairwise fun a b => Text.lowercase b < Text.lowercase a ↔
              Text.lowercase (Line.quoteCandidate b) < Text.lowercase (Line.quoteCandidate a)) ∧
        ((∀ t ∈ left, ∀ c ∈ t.toList, Text.isBlank c = false) →
          described.suggestedValues host line pos = plain.suggestedValues host line pos)) := by
  obtain ⟨down', p', choices', hasks', hsub', hsource', hvalues, hused⟩ :=
    hsame.asks host hasks hsub hsource
  rw [htexts] at hvalues
  refine ⟨down', p', choices', hasks', hsource', hvalues, ?_⟩
  intro left hdescribed hseveral hmost
  have hne : texts ≠ [] := by
    rintro rfl
    simp [left, Completions.remainingTexts] at hseveral
  obtain ⟨c, hc, hunsorted, hleft⟩ := Scope.completeArg_plain (down.scope host) (requestAt line pos)
    hsub hsource htexts hplain hne
  obtain ⟨c', hc', hsorted, hordered⟩ := Scope.completeArg_described (down'.scope host)
    (requestAt line pos) hsub' hsource' hvalues hdescribed (hused ▸ hseveral) (hused ▸ hmost)
  rw [hused] at hordered
  -- Both arguments have candidates, so they are what the lines come to.
  have hlength : c'.values.length = left.length := by
    rw [hordered]
    exact (Sorting.stableSortByText_perm Text.lowercase left).length_eq
  have hitems : c.items ≠ [] := Completions.items_ne_nil (hleft ▸ hseveral)
  have hitems' : c'.items ≠ [] := Completions.items_ne_nil (hlength ▸ hseveral)
  have hline := hasks.complete_eq hc hitems
  have hline' := hasks'.complete_eq hc' hitems'
  have hiff : described.suggestedValues host line pos = plain.suggestedValues host line pos ↔
      pos < (plain.complete host line pos).1.start ∨
        left.Pairwise fun a b => Text.lowercase b < Text.lowercase a ↔
          Text.lowercase (Line.quoteCandidate b) < Text.lowercase (Line.quoteCandidate a) := by
    rw [suggestedValues_eq_iff (by simpa [hline, Completions.written] using hitems)
      (by simpa [hline', Completions.written] using hitems'), hline, hline',
      Completions.values_displayOrder_written hunsorted,
      Completions.values_displayOrder_written_of_sorted hsorted, hleft, hordered]
    -- One side is sorted before it is quoted, the other after. Quoting is injective, so both are
    -- compared as the texts that they are, sorted under two keys.
    have hquote : Function.Injective (List.map Line.quoteCandidate) :=
      List.map_injective_iff.mpr fun _ _ => Line.quoteCandidate_injective
    rw [← Sorting.map_stableSortByText Line.quoteCandidate, hquote.eq_iff,
      Sorting.stableSortByText_eq_iff]
  refine ⟨hiff, ?_⟩
  intro hblank
  refine hiff.mpr (Or.inr (List.Pairwise.imp_of_mem ?_ (List.pairwise_of_forall fun _ _ => trivial)))
  intro a b ha hb _
  rw [Line.quoteCandidate_of_not_blank (hblank a ha), Line.quoteCandidate_of_not_blank (hblank b hb)]

def playing (albums : List Choice) : GrammarSpec :=
  { prog := "play", items := [.arg { name := some "album", choices := some (.fixed albums) }] }

theorem quoted_albums_keep_order :
    ∃ g g' down p choices, (playing [.ofText "Let It Be", .ofText "Abbey Road"]).build = .ok g ∧
      (playing [⟨.text "Let It Be", some "1970"⟩, ⟨.text "Abbey Road", some "1969"⟩]).build = .ok g' ∧
      (⟨[g]⟩ : CommandSet).SameButDescriptions ⟨[g']⟩ ∧
      (⟨[g]⟩ : CommandSet).Asks "play " 5 down p ∧ p.arg.subcommands? = none ∧
      p.arg.choices = some (.fixed choices) ∧
      choices.map (·.value) = ["Let It Be", "Abbey Road"].map .text ∧
      (∀ c ∈ choices, c.description = none) ∧
      (⟨[g']⟩ : CommandSet).suggestedValues {} "play " 5 =
        (⟨[g]⟩ : CommandSet).suggestedValues {} "play " 5 := by
  obtain ⟨g, g', down, down', p, p', hbuild, hbuild', hsame, hasks, hsub, hsource, hleft, hasks',
      hsource'⟩ :
      ∃ g g' down down' p p', (playing [.ofText "Let It Be", .ofText "Abbey Road"]).build = .ok g ∧
        (playing [⟨.text "Let It Be", some "1970"⟩, ⟨.text "Abbey Road", some "1969"⟩]).build =
          .ok g' ∧
        (⟨[g]⟩ : CommandSet).SameButDescriptions ⟨[g']⟩ ∧
        (⟨[g]⟩ : CommandSet).Asks "play " 5 down p ∧ p.arg.subcommands? = none ∧
        p.arg.choices = some (.fixed [.ofText "Let It Be", .ofText "Abbey Road"]) ∧
        Completions.remainingTexts ["Let It Be", "Abbey Road"] (requestAt "play " 5).text
          ((down.scope {}).usedFor p.arg) = ["Let It Be", "Abbey Road"] ∧
        (⟨[g']⟩ : CommandSet).Asks "play " 5 down' p' ∧
        p'.arg.choices = some (.fixed
          [⟨.text "Let It Be", some "1970"⟩, ⟨.text "Abbey Road", some "1969"⟩]) :=
    ⟨_, _, _, _, _, _, rfl, rfl, rfl, ⟨⟨_, rfl, rfl⟩, rfl⟩, rfl, rfl, by decide +kernel,
      ⟨⟨_, rfl, rfl⟩, rfl⟩, rfl⟩
  obtain ⟨_, _, choices', hasked, hlisted, -, horder⟩ :=
    order_with_descriptions_iff hsame {} hasks hsub hsource ["Let It Be", "Abbey Road"] rfl (by decide)
  obtain ⟨rfl, rfl⟩ := hasked.unique hasks'
  rw [hsource'] at hlisted
  cases hlisted
  rw [hleft] at horder
  obtain ⟨hiff, -⟩ := horder (by decide) (by decide) (by decide)
  refine ⟨g, g', down, p, _, hbuild, hbuild', hsame, hasks, hsub, hsource, rfl, by decide, ?_⟩
  exact hiff.mpr (Or.inr (by decide +kernel))

/-- **Descriptions may change the order**: a quote comes before all letters. -/
theorem quotes_change_order :
    ¬∀ (plain described : CommandSet) (host : Host) (line : String) (pos : Nat) (down down' : Descent)
        (p p' : Progress) (choices choices' : List Choice) (texts : List String),
      plain.SameButDescriptions described →
      plain.Asks line pos down p → p.arg.subcommands? = none →
      p.arg.choices = some (.fixed choices) → choices.map (·.value) = texts.map .text →
      (∀ c ∈ choices, c.description = none) →
      described.Asks line pos down' p' → p'.arg.choices = some (.fixed choices') →
      (∀ c ∈ choices', c.description.isSome = true) →
      2 ≤ (plain.complete host line pos).1.completions.items.length →
      (plain.complete host line pos).1.completions.items.length ≤ host.settings.maxItems →
      described.suggestedValues host line pos = plain.suggestedValues host line pos := by
  obtain ⟨g, g', down, down', p, p', -, -, hsame, hasks, hsub, hsource, hasks', hsource', hcount, hplain,
      hdescribed⟩ :
      ∃ g g' down down' p p', (playing [.ofText "Abbey Road", .ofText "Aardvark"]).build = .ok g ∧
        (playing [⟨.text "Abbey Road", some "1969"⟩, ⟨.text "Aardvark", some "1967"⟩]).build =
          .ok g' ∧
        (⟨[g]⟩ : CommandSet).SameButDescriptions ⟨[g']⟩ ∧
        (⟨[g]⟩ : CommandSet).Asks "play " 5 down p ∧ p.arg.subcommands? = none ∧
        p.arg.choices = some (.fixed [.ofText "Abbey Road", .ofText "Aardvark"]) ∧
        (⟨[g']⟩ : CommandSet).Asks "play " 5 down' p' ∧
        p'.arg.choices = some (.fixed
          [⟨.text "Abbey Road", some "1969"⟩, ⟨.text "Aardvark", some "1967"⟩]) ∧
        ((⟨[g]⟩ : CommandSet).complete {} "play " 5).1.completions.items.length = 2 ∧
        (⟨[g]⟩ : CommandSet).suggestedValues {} "play " 5 = .ok ["'Abbey Road'", "Aardvark"] ∧
        (⟨[g']⟩ : CommandSet).suggestedValues {} "play " 5 = .ok ["Aardvark", "'Abbey Road'"] :=
    ⟨_, _, _, _, _, _, rfl, rfl, rfl, ⟨⟨_, rfl, rfl⟩, rfl⟩, rfl, rfl, ⟨⟨_, rfl, rfl⟩, rfl⟩, rfl,
      by decide +kernel, by decide +kernel, by decide +kernel⟩
  intro h
  have hequal := h _ _ {} "play " 5 down down' p p' _ _ ["Abbey Road", "Aardvark"] hsame hasks hsub
    hsource rfl (by decide) hasks' hsource' (by decide) (by omega) (by rw [hcount]; decide)
  rw [hplain, hdescribed] at hequal
  exact absurd hequal (by decide)

end CommandSet

end TabCompletion
