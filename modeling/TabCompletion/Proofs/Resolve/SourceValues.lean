import TabCompletion.Proofs.Resolve.Descent

/-!
# What a source is given

A source that wants the values so far is given those passed down, those consumed in its grammar, and
the word under the cursor as one more value of its own argument (`Scope.tokensFor`). It learns of
nothing else: the answer is that of a source which was told these values beforehand
(`Consults.complete_eq`). Under its own destination a source sees what its argument has so far
(`source_sees_own_values`), under any other what the nearest level has there (`nearest_level_wins`).
-/

namespace TabCompletion

variable {g c : Grammar} {s : Replay} {host : Host} {parents values tokens : ArgTokens}
  {line words : List String} {request : CompletionRequest} {levels : List Level} {p : Progress}
  {d : ArgDef Grammar} {source : ChoiceSource} {dest text : String}

/-! ## Sources that were told -/

/-- The source that was told `tokens` beforehand: it offers what it offers for these, and is given
no values. -/
def ChoiceSource.told (tokens : ArgTokens) : ChoiceSource → ChoiceSource
  | fixed choices => fixed choices
  | provider _ choices => provider false fun _ => choices (some tokens)
  | completer _ complete => completer false fun request _ => complete request (some tokens)

def ArgDef.told (tokens : ArgTokens) (d : ArgDef Grammar) : ArgDef Grammar :=
  { d with choices := d.choices.map (·.told tokens) }

def Progress.told (tokens : ArgTokens) (p : Progress) : Progress :=
  { p with slot := { p.slot with arg := p.arg.told tokens } }

@[simp] theorem Progress.told_arg : (p.told tokens).arg = p.arg.told tokens := rfl

/-- The hint shows choices only of a fixed list, and those are not told anything. -/
theorem Scope.hintFor_told (parents : ArgTokens) :
    ({ host, parents := .empty, values } : Scope).hintFor (d.told tokens) =
      ({ host, parents, values } : Scope).hintFor d := by
  have hfixed : (d.told tokens).choices.bind (·.fixed?) = d.choices.bind (·.fixed?) := by
    rw [ArgDef.told]
    cases d.choices with
    | none => rfl
    | some source => cases source <;> rfl
  have hname : (d.told tokens).valueName = d.valueName := by
    unfold ArgDef.valueName
    rw [hfixed]
    rfl
  have hhint : (d.told tokens).hint = d.hint := by
    unfold ArgDef.hint HelpEntry.ofArg ArgDef.invocation ArgDef.valueNames
    rw [hname]
    rfl
  unfold hintFor
  rw [hhint]
  rfl

/-- **What a source offers is what it offers for the values that it is given.** -/
theorem Scope.completeArg_told (hsub : d.subcommands? = none) (hsource : d.choices = some source)
    (hwants : source.wantsTokens = true) :
    ({ host, parents, values } : Scope).completeArg d request =
      ({ host, parents := .empty, values } : Scope).completeArg
        (d.told (({ host, parents, values } : Scope).tokensFor d.dest request.text)) request := by
  have hcandidates : ({ host, parents, values } : Scope).candidates d request =
      ({ host, parents := .empty, values } : Scope).candidates
        (d.told (({ host, parents, values } : Scope).tokensFor d.dest request.text)) request := by
    have hsub' : (d.told (({ host, parents, values } : Scope).tokensFor d.dest request.text)).subcommands?
        = none := hsub
    unfold candidates
    rw [hsub, hsub']
    simp only [ArgDef.told, hsource, Option.map_some]
    cases source with
    | fixed choices => contradiction
    | provider wants choices =>
        have hwants : wants = true := hwants
        subst hwants
        rfl
    | completer wants complete =>
        have hwants : wants = true := hwants
        subst hwants
        rfl
  unfold completeArg
  rw [hcandidates]
  rfl

/-! ## Who is asked, and with what -/

namespace Replay

/-- Completing `text` asks the source of `p`, and the source wants the values so far. -/
structure Consults (s : Replay) (g : Grammar) (text : String) (p : Progress) : Prop where
  asked : (s.target g text).argument? = some p
  noSubcommands : p.arg.subcommands? = none
  wants : ∃ source, p.arg.choices = some source ∧ source.wantsTokens = true

/-- What the source of `p` is given when `text` is completed: the values passed down, under those
consumed here, and the text as a value of `p`. -/
def shownTo (s : Replay) (parents : ArgTokens) (p : Progress) (text : String) : ArgTokens :=
  (parents.overlay s.values).push p.arg.dest text

/-- **The source is given these values, and learns of nothing else.** -/
theorem Consults.complete_eq (h : s.Consults g request.text p) :
    s.complete g host parents request =
      s.completeValue g host .empty (p.told (s.shownTo parents p request.text)) s.flag.isSome
        request := by
  obtain ⟨ht, hr⟩ := receiver_of_asked h.asked
  obtain ⟨source, hsource, hwants⟩ := h.wants
  have hcomplete : ({ host, parents, values := s.values } : Scope).completeArg p.arg request =
      ({ host, parents := .empty, values := s.values } : Scope).completeArg
        (p.arg.told (s.shownTo parents p request.text)) request :=
    Scope.completeArg_told h.noSubcommands hsource hwants
  rw [complete_eq_completeValue ht hr, completeValue, completeValue]
  rw [hcomplete, Progress.told_arg, Scope.hintFor_told parents]
  rfl

theorem get?_shownTo (h : s.values.DestsDistinct) :
    (s.shownTo parents p text).get? dest =
      if dest = p.arg.dest then
        some (((s.values.get? p.arg.dest).or (parents.get? p.arg.dest)).getD [] ++ [text])
      else (s.values.get? dest).or (parents.get? dest) := by
  unfold shownTo
  rw [ArgTokens.get?_push, ArgTokens.get?_overlay h, ArgTokens.get?_overlay h]

end Replay

/-! ## Nested grammars -/

namespace Grammar

open Replay (feedAll start)

/-- **Wherever the words of a line lead, the source that is asked there is given what was passed down
to its grammar and what was consumed in it.** -/
theorem tryResolve_eq_told (host : Host) (parents : ArgTokens) (hline : line ≠ [])
    (h : g.descend (start g) (wordsBefore line request.text) = .ok ⟨levels, c, s⟩)
    (hask : s.Consults c request.text p) :
    g.tryResolve host parents line request =
      s.completeValue c host .empty (p.told (s.shownTo (inherit parents levels) p request.text))
        s.flag.isSome request := by
  rw [tryResolve_eq_descend hline, h]
  exact hask.complete_eq

/-- **The nearest level wins.** A line leads through the grammars of `levels`, the outermost first, to
the grammar `c`, where the source of `p` is asked. Under every destination other than that of `p`
the source is given what was consumed in `c`, if there is an entry; else what the nearest level has
there, which is the name that it selected if it records the name there, and its own values
otherwise; else what was passed to the outermost grammar. Nothing is given under a destination
just if none of them has it. -/
theorem nearest_level_wins (request : CompletionRequest) (hline : line ≠ [])
    (h : g.descend (start g) (wordsBefore line request.text) = .ok ⟨levels, c, s⟩)
    (hask : s.Consults c request.text p) (host : Host) (parents : ArgTokens) :
    let tokens := s.shownTo (inherit parents levels) p request.text
    g.tryResolve host parents line request =
        s.completeValue c host .empty (p.told tokens) s.flag.isSome request ∧
      (∀ dest, dest ≠ p.arg.dest → tokens.get? dest =
        ((s.values.get? dest).or (levels.reverse.findSome? (·.get? dest))).or (parents.get? dest)) ∧
      ∀ dest, dest ≠ p.arg.dest → (tokens.get? dest = none ↔
        s.values.get? dest = none ∧
          (∀ l ∈ levels, l.recordsUnder dest = false ∧ l.values.get? dest = none) ∧
          parents.get? dest = none) := by
  intro tokens
  obtain ⟨hvalues, hlevels⟩ := Replay.descend_destsDistinct h
  have hother : ∀ dest, dest ≠ p.arg.dest → tokens.get? dest =
      ((s.values.get? dest).or (levels.reverse.findSome? (·.get? dest))).or
        (parents.get? dest) := by
    intro dest hdest
    rw [Replay.get?_shownTo hvalues, if_neg hdest, get?_inherit hlevels, Option.or_assoc]
  refine ⟨tryResolve_eq_told host parents hline h hask, hother, ?_⟩
  intro dest hdest
  rw [hother dest hdest]
  simp only [Option.or_eq_none_iff, List.findSome?_eq_none_iff, List.mem_reverse, Level.get?_eq_none,
    and_assoc]

/-- A command for the time of a deployment, which completes to the values under one destination. -/
def timing (dest : String) : GrammarSpec :=
  let offered (tokens : Option ArgTokens) : List String := ((tokens.bind (·.get? dest)).getD [])
  { prog := "at"
    items := [.arg
      { name := some "when"
        nargs := some .zeroOrMore
        choices := some (.completer true fun _ tokens => .ok ((offered tokens).map .ofText)) }] }

/-- A command with one flag and one subcommand, whose name it may record. -/
def placing (flag : String) (dest : Option String) (name : String) (inner : Grammar) : GrammarSpec :=
  { prog := "cloud"
    items := [.arg { aliases := [flag] }, .subcommand name inner]
    subcommandsDest := dest }

/-- The request for a time at the end of a line. -/
def timeRequest (line : String) : CompletionRequest :=
  { text := "so", line, begidx := line.length - 2, endidx := line.length }

theorem inner_region_reaches_source :
    ∃ c r g levels s p, (timing "region").build = .ok c ∧
      (placing "--region" none "at" c).build = .ok r ∧
      (placing "--region" (some "action") "deploy" r).build = .ok g ∧
      g.descend (start g)
          (wordsBefore ["cloud", "--region", "eu", "deploy", "--region", "us", "at", "so"] "so") =
        .ok ⟨levels, c, s⟩ ∧
      s.Consults c "so" p ∧
      let tokens := s.shownTo (inherit ⟨[("action", ["old"]), ("zone", ["z"])]⟩ levels) p "so"
      tokens.get? "region" = some ["us"] ∧ tokens.get? "action" = some ["deploy"] ∧
        tokens.get? "zone" = some ["z"] ∧ tokens.get? "tag" = none := by
  obtain ⟨c, r, g, levels, s, p, source, hc, hr, hg, hdescend, hasked, hsub, hsource, hwants, hdest,
      hvalues, hregion, haction, hzone, htag⟩ :
      ∃ c r g levels s p source, (timing "region").build = .ok c ∧
        (placing "--region" none "at" c).build = .ok r ∧
        (placing "--region" (some "action") "deploy" r).build = .ok g ∧
        g.descend (start g)
            (wordsBefore ["cloud", "--region", "eu", "deploy", "--region", "us", "at", "so"] "so") =
          .ok ⟨levels, c, s⟩ ∧
        (s.target c "so").argument? = some p ∧ p.arg.subcommands? = none ∧
        p.arg.choices = some source ∧ source.wantsTokens = true ∧ p.arg.dest = "when" ∧
        s.values = .empty ∧
        levels.reverse.findSome? (·.get? "region") = some ["us"] ∧
        levels.reverse.findSome? (·.get? "action") = some ["deploy"] ∧
        levels.reverse.findSome? (·.get? "zone") = none ∧
        levels.reverse.findSome? (·.get? "tag") = none :=
    ⟨_, _, _, _, _, _, _, rfl, rfl, rfl, rfl, rfl, rfl, rfl, rfl, rfl, rfl, rfl, rfl, rfl, rfl⟩
  have hask : s.Consults c "so" p := ⟨hasked, hsub, source, hsource, hwants⟩
  obtain ⟨-, hother, -⟩ :=
    nearest_level_wins (timeRequest "cloud --region eu deploy --region us at so")
      (List.cons_ne_nil _ _) hdescend hask {} ⟨[("action", ["old"]), ("zone", ["z"])]⟩
  simp only [hdest, hvalues] at hother
  refine ⟨c, r, g, levels, s, p, hc, hr, hg, hdescend, hask, ?_, ?_, ?_, ?_⟩
  · exact (hother "region" (by decide)).trans (by rw [hregion]; rfl)
  · exact (hother "action" (by decide)).trans (by rw [haction]; rfl)
  · exact (hother "zone" (by decide)).trans (by rw [hzone]; rfl)
  · exact (hother "tag" (by decide)).trans (by rw [htag]; rfl)

/-- **A source sees the progress of its own argument.** Under the destination of `p` the source is
given the values consumed there in its own grammar; where the grammar has no entry for it, the
values that were passed down under it; and in any case the word under the cursor as the last one. -/
theorem source_sees_own_values (request : CompletionRequest) (hline : line ≠ [])
    (hrun : feedAll g (start g) (wordsBefore line request.text) = .ok (.next s))
    (hask : s.Consults g request.text p) (host : Host) (parents : ArgTokens) :
    let tokens := s.shownTo parents p request.text
    g.tryResolve host parents line request =
        s.completeValue g host .empty (p.told tokens) s.flag.isSome request ∧
      tokens.get? p.arg.dest =
        some (((s.values.get? p.arg.dest).or (parents.get? p.arg.dest)).getD [] ++
          [request.text]) := by
  intro tokens
  have hdescend := descend_of_feedAll hrun
  have hanswer := tryResolve_eq_told host parents hline hdescend hask
  rw [inherit_nil] at hanswer
  refine ⟨hanswer, ?_⟩
  rw [Replay.get?_shownTo (Replay.descend_destsDistinct hdescend).1, if_pos rfl]

theorem own_times_reach_source :
    ∃ c s p, (timing "when").build = .ok c ∧
      feedAll c (start c) (wordsBefore ["at", "now", "so"] "so") = .ok (.next s) ∧
      s.Consults c "so" p ∧
      (s.shownTo ⟨[("when", ["noon"])]⟩ p "so").get? p.arg.dest = some ["now", "so"] ∧
      c.tryResolve {} ⟨[("when", ["noon"])]⟩ ["at", "now", "so"] (timeRequest "at now so") =
        .ok { completions := .ofValues ["now", "so"] } := by
  obtain ⟨c, s, p, source, hc, hrun, hasked, hsub, hsource, hwants, hdest, hvalues, hanswer⟩ :
      ∃ c s p source, (timing "when").build = .ok c ∧
        feedAll c (start c) (wordsBefore ["at", "now", "so"] "so") = .ok (.next s) ∧
        (s.target c "so").argument? = some p ∧ p.arg.subcommands? = none ∧
        p.arg.choices = some source ∧ source.wantsTokens = true ∧ p.arg.dest = "when" ∧
        s.values = ⟨[("when", ["now"])]⟩ ∧
        c.tryResolve {} ⟨[("when", ["noon"])]⟩ ["at", "now", "so"] (timeRequest "at now so") =
          .ok { completions := .ofValues ["now", "so"] } :=
    ⟨_, _, _, _, rfl, rfl, rfl, rfl, rfl, rfl, rfl, rfl, rfl⟩
  have hask : s.Consults c "so" p := ⟨hasked, hsub, source, hsource, hwants⟩
  obtain ⟨-, hown⟩ :=
    source_sees_own_values (timeRequest "at now so") (List.cons_ne_nil _ _) hrun hask {}
      ⟨[("when", ["noon"])]⟩
  refine ⟨c, s, p, hc, hrun, hask, hown.trans ?_, hanswer⟩
  rw [hdest, hvalues]
  rfl

/-- **What was passed down stands before the word under the cursor** where the argument has consumed
nothing yet, as though it were progress of its own. -/
theorem passed_down_time_precedes_word :
    ∃ c g levels s p, (timing "when").build = .ok c ∧
      (placing "--when" none "at" c).build = .ok g ∧
      g.descend (start g) (wordsBefore ["cloud", "--when", "noon", "at", "so"] "so") =
        .ok ⟨levels, c, s⟩ ∧
      s.Consults c "so" p ∧ s.values.get? p.arg.dest = none ∧
      (s.shownTo (inherit .empty levels) p "so").get? p.arg.dest = some ["noon", "so"] ∧
      (s.shownTo (inherit .empty levels) p "so").get? p.arg.dest ≠
        some ((s.values.get? p.arg.dest).getD [] ++ ["so"]) ∧
      g.tryResolve {} .empty ["cloud", "--when", "noon", "at", "so"]
          (timeRequest "cloud --when noon at so") =
        .ok { completions := .ofValues ["noon", "so"] } :=
  ⟨_, _, _, _, _, rfl, rfl, rfl, ⟨rfl, rfl, _, rfl, rfl⟩, rfl, rfl, by decide, rfl⟩

end Grammar

end TabCompletion
