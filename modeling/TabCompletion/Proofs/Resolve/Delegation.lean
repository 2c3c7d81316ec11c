import TabCompletion.Grammar.Builder
import TabCompletion.Proofs.Replay.Target

/-!
# Handing over to a subcommand

A nested grammar learns of the words before its name only through the values that are passed down.
Where no source of the nested grammar is given those (`Tokenless`), completing the whole line is
completing the words from the name on: resolving words that hand over is resolving the rest in the
nested grammar with some values passed down (`HandsOver.resolveFrom_eq`), and which ones these are
changes no answer (`resolveFrom_parents`).
-/

namespace TabCompletion

variable {g c : Grammar} {host : Host} {parents outer inner values : ArgTokens}
  {request : CompletionRequest} {d : ArgDef Grammar} {pre rest words : List String}
  {name word text : String}

/-! ## Grammars that do not see the values -/

/-- No choice source of a grammar, nor of one nested in it at any depth, is given the values so
far. -/
inductive Grammar.Tokenless : Grammar → Prop where
  | intro {g : Grammar}
      (here : ∀ slot ∈ g.slots, ∀ source, slot.arg.choices = some source →
        source.wantsTokens = false)
      (below : ∀ slot ∈ g.slots, ∀ subs, slot.arg.subcommands? = some subs →
        ∀ p ∈ subs, Tokenless p.2) : Tokenless g

/-- A source that is not given the values offers the same in all surroundings. -/
theorem Scope.completeArg_parents
    (hd : ∀ source, d.choices = some source → source.wantsTokens = false) :
    ({ host, parents := outer, values } : Scope).completeArg d request =
      ({ host, parents := inner, values } : Scope).completeArg d request := by
  have hcandidates : ({ host, parents := outer, values } : Scope).candidates d request =
      ({ host, parents := inner, values } : Scope).candidates d request := by
    unfold candidates
    cases d.subcommands? with
    | some subs => rfl
    | none =>
        cases hc : d.choices with
        | none => rfl
        | some source =>
            have hwants := hd source hc
            cases source with
            | fixed choices => rfl
            | provider wants choices =>
                have hwants : wants = false := hwants
                subst hwants
                rfl
            | completer wants complete =>
                have hwants : wants = false := hwants
                subst hwants
                rfl
  unfold completeArg
  rw [hcandidates]

namespace Replay

variable {s s' : Replay} {p : Progress}

theorem Coherent.complete_parents (h : Coherent g s) (hg : g.Tokenless) :
    s.complete g host outer request = s.complete g host inner request := by
  by_cases ht : s.target g request.text = .flags
  · simp only [complete, ht]
  · cases hr : s.receiver with
    | none => simp only [complete, (target_eq_nothing_iff ht).mpr hr]
    | some p =>
        obtain ⟨here, -⟩ := hg
        have harg : ({ host, parents := outer, values := s.values } : Scope).completeArg p.arg request =
            ({ host, parents := inner, values := s.values } : Scope).completeArg p.arg request :=
          Scope.completeArg_parents (here p.slot (h.receiver_mem hr))
        rw [complete_eq_completeValue ht hr, complete_eq_completeValue ht hr]
        unfold completeValue
        simp only [harg]
        rfl

end Replay

namespace Grammar

open Replay (feedAll start)

/-- **Surroundings that no source sees change no answer.** -/
theorem resolveFrom_parents {s : Replay} (hg : g.Tokenless) (hs : Replay.Coherent g s) :
    resolveFrom host request g outer s words = resolveFrom host request g inner s words := by
  induction words generalizing g s outer inner with
  | nil => exact hs.complete_parents hg
  | cons word words ih =>
      cases words with
      | nil => exact hs.complete_parents hg
      | cons next rest =>
          rw [resolveFrom, resolveFrom]
          cases hfeed : s.feed g word with
          | error e => rfl
          | ok fed =>
              cases fed with
              | next s' =>
                  obtain ⟨r, hstep⟩ := Replay.feed_next_iff.mp hfeed
                  exact ih hg (hs.step hstep)
              | delegate child =>
                  obtain ⟨-, -, slot, later, subs, hpending, hsub, hlookup⟩ :=
                    Replay.feed_delegate_iff.mp hfeed
                  have hslot := (mem_positionals.mp (hs.next_mem hpending)).1
                  obtain ⟨l₁, l₂, hsubs, -⟩ := List.lookup_eq_some_iff.mp hlookup
                  obtain ⟨-, below⟩ := hg
                  have hchild : child.Tokenless :=
                    below slot hslot subs hsub (word, child) (by simp [hsubs])
                  exact ih hchild (Replay.start_coherent child)

/-! ## Words that hand over -/

/-- After the words `pre`, the word `name` hands over to the grammar `c`: in `g` itself, or in a
grammar that `pre` handed over to on the way. -/
inductive HandsOver : Grammar → List String → String → Grammar → Prop where
  | here {g c : Grammar} {s : Replay} {pre : List String} {name : String}
      (hrun : feedAll g (start g) pre = .ok (.next s))
      (hname : s.feed g name = .ok (.delegate c)) : HandsOver g pre name c
  | deeper {g d c : Grammar} {s : Replay} {pre pre' : List String} {sub name : String}
      (hrun : feedAll g (start g) pre = .ok (.next s))
      (hsub : s.feed g sub = .ok (.delegate d))
      (hdeeper : HandsOver d pre' name c) : HandsOver g (pre ++ sub :: pre') name c

theorem resolveFrom_append {s s' : Replay} (h : feedAll g s pre = .ok (.next s'))
    (hrest : rest ≠ []) :
    resolveFrom host request g parents s (pre ++ rest) =
      resolveFrom host request g parents s' rest := by
  induction pre generalizing s with
  | nil =>
      cases h
      rfl
  | cons word pre ih =>
      obtain ⟨s₁, r, hstep, hpre⟩ := Replay.feedAll_cons_next.mp h
      obtain ⟨next, later, hnext⟩ := List.exists_cons_of_ne_nil (l := pre ++ rest) (by simp [hrest])
      rw [List.cons_append, hnext, resolveFrom, hstep.feed_eq, ← hnext]
      exact ih hpre

theorem resolveFrom_delegate {s : Replay} (h : s.feed g name = .ok (.delegate c))
    (hrest : rest ≠ []) :
    resolveFrom host request g parents s (name :: rest) =
      resolveFrom host request c (g.passedDown parents s.values name) (start c) rest := by
  obtain ⟨next, later, rfl⟩ := List.exists_cons_of_ne_nil hrest
  rw [resolveFrom, h]

/-- **Words that hand over leave the rest to the nested grammar**, with some values passed down. -/
theorem HandsOver.resolveFrom_eq (h : HandsOver g pre name c) (hrest : rest ≠ []) :
    ∃ inner, resolveFrom host request g parents (start g) (pre ++ name :: rest) =
      resolveFrom host request c inner (start c) rest := by
  induction h generalizing parents with
  | here hrun hname =>
      rw [resolveFrom_append hrun (List.cons_ne_nil _ _), resolveFrom_delegate hname hrest]
      exact ⟨_, rfl⟩
  | @deeper g d c s pre pre' sub name hrun hsub hdeeper ih =>
      have hlater : pre' ++ name :: rest ≠ [] := by simp
      rw [List.append_assoc, List.cons_append, resolveFrom_append hrun (List.cons_ne_nil _ _),
        resolveFrom_delegate hsub hlater]
      exact ih

/-- Only the last of the words matters to the word that may have been left out. -/
theorem normalizeWords_append (pre : List String) (hrest : rest ≠ []) :
    normalizeWords (pre ++ rest) text = pre ++ normalizeWords rest text := by
  unfold normalizeWords
  rw [List.getLast?_append]
  cases hlast : rest.getLast? with
  | none => exact absurd (List.getLast?_eq_none_iff.mp hlast) hrest
  | some last =>
      simp only [Option.some_or]
      split
      · rw [List.append_assoc]
      · rfl

theorem normalizeWords_ne_nil (hrest : rest ≠ []) : normalizeWords rest text ≠ [] := by
  unfold normalizeWords
  cases hlast : rest.getLast? with
  | none => exact absurd (List.getLast?_eq_none_iff.mp hlast) hrest
  | some last =>
      simp only
      split <;> simp [hrest]

/-- **Handing over is compositional.** Where some words lead to a nested grammar none of whose
sources is given the values so far, completing a line that goes on after them is completing the rest
of it as a line of the nested grammar: the candidates, the hint, the failure are the same, whatever
the words before were and whatever was passed down. -/
theorem tryResolve_of_handsOver (h : HandsOver g pre name c) (hc : c.Tokenless) (hrest : rest ≠ [])
    (host : Host) (parents : ArgTokens) (command : String) (request : CompletionRequest) :
    g.tryResolve host parents (command :: (pre ++ name :: rest)) request =
      c.tryResolve host .empty (name :: rest) request := by
  have houter : normalizeWords (command :: (pre ++ name :: rest)) request.text =
      command :: (pre ++ name :: normalizeWords rest request.text) := by
    rw [← List.cons_append, List.append_cons, normalizeWords_append _ hrest]
    simp
  have hinner : normalizeWords (name :: rest) request.text =
      name :: normalizeWords rest request.text := normalizeWords_append [name] hrest
  have hwords : normalizeWords rest request.text ≠ [] := normalizeWords_ne_nil hrest
  obtain ⟨inner, hresolve⟩ : ∃ inner, resolveFrom host request g parents (start g)
      (pre ++ name :: normalizeWords rest request.text) =
        resolveFrom host request c inner (start c) (normalizeWords rest request.text) :=
    h.resolveFrom_eq hwords
  unfold tryResolve
  rw [houter, hinner]
  show resolveFrom host request g parents (start g) _ = resolveFrom host request c .empty (start c) _
  rw [hresolve]
  exact resolveFrom_parents hc (Replay.start_coherent c)

/-- A command that takes a name out of two. -/
def naming : GrammarSpec :=
  { prog := "add"
    items := [.arg { name := some "name", choices := some (.fixed [.ofText "alpha", .ofText "beta"]) }] }

/-- A command with a flag and one subcommand. -/
def tagging (name : String) (inner : Grammar) : GrammarSpec :=
  { prog := "vault"
    items := [.arg { aliases := ["--tag"], action := .append }, .subcommand name inner] }

/-- The request for a name after two hand-overs. -/
def nameRequest : CompletionRequest :=
  { text := "al", line := "vault --tag x remote --tag y add al", begidx := 33, endidx := 35 }

theorem nested_naming_completes_alone :
    ∃ c r g, naming.build = .ok c ∧ (tagging "add" c).build = .ok r ∧
      (tagging "remote" r).build = .ok g ∧
      HandsOver g ["--tag", "x", "remote", "--tag", "y"] "add" c ∧ c.Tokenless ∧
      g.tryResolve {} ⟨[("name", ["alpha"])]⟩
          ["vault", "--tag", "x", "remote", "--tag", "y", "add", "al"] nameRequest =
        .ok { completions := .ofValues ["alpha"] } := by
  obtain ⟨c, r, g, s, t, d, hc, hr, hg, hrun, hremote, hrun', hadd, hslots, hchoices, hsubs, halone⟩ :
      ∃ c r g s t d, naming.build = .ok c ∧ (tagging "add" c).build = .ok r ∧
        (tagging "remote" r).build = .ok g ∧
        feedAll g (start g) ["--tag", "x"] = .ok (.next s) ∧
        s.feed g "remote" = .ok (.delegate r) ∧
        feedAll r (start r) ["--tag", "y"] = .ok (.next t) ∧ t.feed r "add" = .ok (.delegate c) ∧
        c.slots = [⟨0, d⟩] ∧
        d.choices = some (.fixed [.ofText "alpha", .ofText "beta"]) ∧ d.subcommands? = none ∧
        c.tryResolve {} .empty ["add", "al"] nameRequest =
          .ok { completions := .ofValues ["alpha"] } :=
    ⟨_, _, _, _, _, _, rfl, rfl, rfl, rfl, rfl, rfl, rfl, rfl, rfl, rfl, rfl⟩
  have hover : HandsOver g ["--tag", "x", "remote", "--tag", "y"] "add" c :=
    .deeper hrun hremote (.here hrun' hadd)
  have htokenless : c.Tokenless := by
    refine .intro ?_ ?_
    · intro slot hslot source hsource
      rw [hslots, List.mem_singleton] at hslot
      subst hslot
      rw [hchoices, Option.some.injEq] at hsource
      subst hsource
      rfl
    · intro slot hslot subs hsub
      rw [hslots, List.mem_singleton] at hslot
      subst hslot
      rw [hsubs] at hsub
      contradiction
  refine ⟨c, r, g, hc, hr, hg, hover, htokenless, ?_⟩
  have hsame := tryResolve_of_handsOver hover htokenless (List.cons_ne_nil "al" []) {}
    ⟨[("name", ["alpha"])]⟩ "vault" nameRequest
  exact hsame.trans halone

end Grammar

end TabCompletion
