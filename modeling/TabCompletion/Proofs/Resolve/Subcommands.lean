import TabCompletion.Grammar.Builder
import TabCompletion.Proofs.Completion.Candidates
import TabCompletion.Proofs.Replay.Conservation
import TabCompletion.Proofs.Replay.Target

/-!
# Subcommands on offer

The names of the subcommands are candidates like any others: those among the values recorded under
the destination of the dispatch argument are left out (`Replay.openSubcommands`). The dispatch
argument records none while the words are replayed, so a name that is left out is a word that some
other argument with this destination took (`Attributed`), and reading would still hand over to it.
-/

namespace TabCompletion

variable {g : Grammar} {d : ArgDef Grammar} {subs : List (String × Grammar)}
  {names used : List String} {text : String} {request : CompletionRequest}

/-! ## Texts as choices -/

namespace Completions

/-- Texts are in no order of numbers. -/
theorem orderChoices_ofText (names : List String) :
    orderChoices (names.map .ofText) = names.map .ofText := by
  cases names with
  | nil => rfl
  | cons name names => rfl

theorem remaining_ofText :
    remaining (names.map .ofText) text used =
      ((beginningWith text names).filter fun name => !used.contains name).map .ofText := by
  rw [← filter_isOpen, List.filter_map, beginningWith, List.filter_filter]
  rfl

theorem ofItems_ofText_values (names : List String) (sorted : Bool) :
    (ofItems (names.map .ofText) sorted).values = names := by
  simp [ofItems, values, itemOf, Choice.ofText, ChoiceValue.display, Function.comp_def]

end Completions

/-- **The candidates of a dispatch argument** are the names of its subcommands that begin with the
word under the cursor and are not among the values of its destination, in their order. -/
theorem Scope.completeArg_subcommands (scope : Scope) (request : CompletionRequest)
    (hsub : d.subcommands? = some subs) :
    ∃ c, scope.completeArg d request = .ok c ∧
      c.values = (beginningWith request.text (subs.map (·.1))).filter
        fun name => !(scope.usedFor d).contains name := by
  have hlists : scope.Lists d request.text ((subs.map (·.1)).map .ofText) := by
    rw [List.map_map]
    exact .subcommands hsub
  have hcandidates := hlists.candidates_eq
  rw [Completions.ofChoices_eq, Completions.orderChoices_ofText, Completions.remaining_ofText]
    at hcandidates
  simp only [completeArg, hcandidates]
  refine ⟨_, rfl, ?_⟩
  rw [Completions.withTable_of_plain, Completions.ofItems_ofText_values]
  intro i hi
  obtain ⟨choice, hchoice, rfl⟩ := List.mem_map.mp hi
  obtain ⟨name, -, rfl⟩ := List.mem_map.mp hchoice
  rfl

namespace Replay

variable {s s' : Replay} {slot : Slot} {word name dest : String} {words : List String}
  {rs : List Role}

/-! ## What is on offer -/

/-- Where no argument is active, the next word is the name of a subcommand. -/
structure AwaitsSubcommand (s : Replay) (slot : Slot) (subs : List (String × Grammar)) : Prop where
  flag : s.flag = none
  positional : s.positional = none
  next : s.pending.head? = some slot
  subcommands : slot.arg.subcommands? = some subs

/-- The names of the subcommands that begin with a text and are not among the values of the dispatch
argument's destination. -/
def openSubcommands (s : Replay) (d : ArgDef Grammar) (subs : List (String × Grammar))
    (text : String) : List String :=
  (beginningWith text (subs.map (·.1))).filter
    fun name => !((s.values.get? d.dest).getD []).contains name

theorem mem_openSubcommands :
    name ∈ s.openSubcommands d subs text ↔
      (name ∈ subs.map (·.1) ∧ Text.beginsWith name text = true) ∧
        name ∉ (s.values.get? d.dest).getD [] := by
  simp only [openSubcommands, beginningWith, List.mem_filter, Bool.not_eq_true',
    List.contains_eq_mem, decide_eq_false_iff_not]

theorem AwaitsSubcommand.receiver (h : s.AwaitsSubcommand slot subs) :
    s.receiver = some { slot } := by
  obtain ⟨rest, hpending⟩ := List.head?_eq_some_iff.mp h.next
  exact receiver_of_pending h.flag h.positional hpending

theorem AwaitsSubcommand.complete_eq (h : s.AwaitsSubcommand slot subs)
    (ht : s.target g request.text ≠ .flags) (host : Host) (parents : ArgTokens)
    (hopen : s.openSubcommands slot.arg subs request.text ≠ []) :
    ∃ c, s.complete g host parents request = .ok { completions := c } ∧
      c.values = s.openSubcommands slot.arg subs request.text := by
  obtain ⟨c, hc, hvalues⟩ :=
    Scope.completeArg_subcommands { host, parents, values := s.values } request h.subcommands
  have hvalues : c.values = s.openSubcommands slot.arg subs request.text := hvalues
  have hitems : c.items ≠ [] := by
    intro hnil
    rw [← hvalues, Completions.values, hnil] at hopen
    exact hopen rfl
  exact ⟨c, (asksFirst ht h.receiver).answer c hc hitems, hvalues⟩

/-- Reading hands over to subcommands of the dispatch argument only. -/
theorem AwaitsSubcommand.mem_of_delegate (h : s.AwaitsSubcommand slot subs) {child : Grammar}
    (hfeed : s.feed g name = .ok (.delegate child)) : name ∈ subs.map (·.1) := by
  obtain ⟨-, -, slot', rest, subs', hpending, hsub, hlookup⟩ := feed_delegate_iff.mp hfeed
  have hslot : slot' = slot := by
    have hnext := h.next
    rw [hpending] at hnext
    exact Option.some.inj hnext
  subst hslot
  rw [h.subcommands, Option.some.injEq] at hsub
  subst hsub
  obtain ⟨l₁, l₂, hsubs, -⟩ := List.lookup_eq_some_iff.mp hlookup
  simp [hsubs]

/-- A word that looks like no flag is completed as none. -/
theorem target_ne_flags_of_value (h : g.looksLikeFlag text = false) : s.target g text ≠ .flags := by
  rw [Ne, target_eq_flags, h]
  simp

/-! ## Where the values are from -/

/-- A value is taken by an argument of the grammar, and never by a dispatch argument. -/
theorem Step.value_taker (h : Coherent g s) (hstep : Step g s word (.value slot) s') :
    slot ∈ g.slots ∧ slot.arg.isDispatch = false := by
  constructor
  · obtain ⟨p, hr, rfl, -⟩ := hstep.receives h
    exact h.receiver_mem hr
  · cases hstep with
    | remainderValue hp | activeValue ho hv hf hp => exact (h.positional hp).notDispatch
    | remainderFlagValue ho hf | flagValue ho hv hf =>
        exact ArgDef.isDispatch_eq_false.mpr (ArgDef.subcommands?_of_isFlag (h.flag hf).isFlag)
    | nextValue ho hv hf hp hpending hsub => exact ArgDef.isDispatch_eq_false.mpr hsub

/-- A word of a run was taken by an argument with this destination, one that is not a dispatch
argument. -/
def TakenUnder (g : Grammar) (words : List String) (rs : List Role) (dest word : String) : Prop :=
  ∃ (i : Nat) (other : Slot), words[i]? = some word ∧ rs[i]? = some (.value other) ∧
    other ∈ g.slots ∧ other.arg.dest = dest ∧ other.arg.isDispatch = false

/-- Whatever is recorded under a destination is a word that an argument with this destination took,
which is no dispatch argument. -/
structure Attributed (g : Grammar) (words : List String) (rs : List Role) (s : Replay) : Prop where
  coherent : Coherent g s
  conserved : Conserved words rs s
  taker : ∀ slot, Role.value slot ∈ rs → slot ∈ g.slots ∧ slot.arg.isDispatch = false

theorem start_attributed (g : Grammar) : Attributed g [] [] (start g) where
  coherent := start_coherent g
  conserved := start_conserved g
  taker := by simp

theorem Attributed.step {r : Role} (h : Attributed g words rs s) (hstep : Step g s word r s') :
    Attributed g (words ++ [word]) (rs ++ [r]) s' where
  coherent := h.coherent.step hstep
  conserved := h.conserved.step hstep
  taker slot hslot := by
    rcases List.mem_append.mp hslot with hbefore | hlast
    · exact h.taker slot hbefore
    · cases List.mem_singleton.mp hlast
      exact hstep.value_taker h.coherent

theorem feedAll_attributed (h : feedAll g (start g) words = .ok (.next s)) :
    Attributed g words (roles g (start g) words) s :=
  feedAll_roles_invariant Attributed.step (start_attributed g) h

theorem Attributed.takenUnder (h : Attributed g words rs s)
    (hname : name ∈ (s.values.get? dest).getD []) : TakenUnder g words rs dest name := by
  have hplace : some name ∈ (placesOf dest rs).map (words[·]?) := by
    rw [← h.conserved.values]
    exact List.mem_map_of_mem hname
  obtain ⟨i, hi, hword⟩ := List.mem_map.mp hplace
  obtain ⟨⟨other, hother, hdest⟩, -⟩ := isKept_iff.mp (mem_placesOf.mp hi)
  obtain ⟨hmem, hdispatch⟩ := h.taker other (List.mem_of_getElem? hother)
  exact ⟨i, other, hword, hother, hmem, hdest, hdispatch⟩

/-- A name that reading would hand over to is open, or was taken by another argument. -/
theorem AwaitsSubcommand.open_or_taken (h : s.AwaitsSubcommand slot subs)
    (hrun : feedAll g (start g) words = .ok (.next s)) {child : Grammar}
    (hfeed : s.feed g name = .ok (.delegate child)) (hbegins : Text.beginsWith name text = true) :
    name ∈ s.openSubcommands slot.arg subs text ∨
      TakenUnder g words (roles g (start g) words) slot.arg.dest name := by
  by_cases hused : name ∈ (s.values.get? slot.arg.dest).getD []
  · exact Or.inr ((feedAll_attributed hrun).takenUnder hused)
  · exact Or.inl (mem_openSubcommands.mpr ⟨⟨h.mem_of_delegate hfeed, hbegins⟩, hused⟩)

/-- **The subcommands on offer.** In the state after a run, where the next word is the name of a
subcommand and the word under the cursor is not completed as a flag, the open names are offered, if
there are any. Each name that begins with this word and that reading would hand over to is open, or
it is a word of the run that an argument with the same destination took, one that is not a dispatch
argument. So where no such argument shares the destination, every name that begins with the word and
that reading would hand over to is offered, whatever the words before it were. -/
theorem open_subcommands_are_offered (hrun : feedAll g (start g) words = .ok (.next s))
    (h : s.AwaitsSubcommand slot subs) (host : Host) (parents : ArgTokens)
    (request : CompletionRequest) (ht : s.target g request.text ≠ .flags) :
    (s.openSubcommands slot.arg subs request.text ≠ [] →
      ∃ c, s.complete g host parents request = .ok { completions := c } ∧
        c.values = s.openSubcommands slot.arg subs request.text) ∧
    (∀ name child, s.feed g name = .ok (.delegate child) →
      Text.beginsWith name request.text = true →
        name ∈ s.openSubcommands slot.arg subs request.text ∨
          TakenUnder g words (roles g (start g) words) slot.arg.dest name) ∧
    ((∀ other ∈ g.slots, other.arg.dest = slot.arg.dest → other.arg.isDispatch = true) →
      ∀ name child, s.feed g name = .ok (.delegate child) →
        Text.beginsWith name request.text = true →
          ∃ answer, s.complete g host parents request = .ok answer ∧
            name ∈ answer.completions.values) := by
  refine ⟨h.complete_eq ht host parents, fun _ _ => h.open_or_taken hrun, ?_⟩
  intro hapart name child hfeed hbegins
  rcases h.open_or_taken hrun hfeed hbegins with hopen | ⟨_, other, -, -, hmem, hdest, hdispatch⟩
  · obtain ⟨c, hc, hvalues⟩ := h.complete_eq ht host parents (List.ne_nil_of_mem hopen)
    refine ⟨_, hc, ?_⟩
    show name ∈ c.values
    rw [hvalues]
    exact hopen
  · rw [hapart other hmem hdest] at hdispatch
    contradiction

/-- A command with a flag that takes a mode and two subcommands, the flag's destination and that of
the subcommands being chosen. -/
def switching (flagDest dispatchDest : Option String) : GrammarSpec :=
  { prog := "cmd"
    subcommandsDest := dispatchDest
    items := [.arg { aliases := ["--mode"], dest := flagDest }, .subcommand "add" default,
      .subcommand "remove" default] }

/-- The request for a subcommand after a mode. -/
def subcommandRequest : CompletionRequest :=
  { text := "", line := "cmd --mode add ", begidx := 15, endidx := 15 }

theorem add_is_offered_after_mode_add :
    ∃ g s slot subs answer, (switching none (some "command")).build = .ok g ∧
      feedAll g (start g) ["--mode", "add"] = .ok (.next s) ∧ s.AwaitsSubcommand slot subs ∧
      s.target g "" ≠ .flags ∧ s.feed g "add" = .ok (.delegate default) ∧
      s.complete g {} .empty subcommandRequest = .ok answer ∧ "add" ∈ answer.completions.values := by
  obtain ⟨g, s, slot, subs, hbuild, hrun, hawaits, hlook, hfeed, hdests⟩ :
      ∃ g s slot subs, (switching none (some "command")).build = .ok g ∧
        feedAll g (start g) ["--mode", "add"] = .ok (.next s) ∧ s.AwaitsSubcommand slot subs ∧
        g.looksLikeFlag "" = false ∧ s.feed g "add" = .ok (.delegate default) ∧
        ∀ other ∈ g.slots, other.arg.dest = slot.arg.dest → other.arg.isDispatch = true :=
    ⟨_, _, _, _, rfl, rfl, ⟨rfl, rfl, rfl, rfl⟩, rfl, rfl, by decide⟩
  have ht : s.target g "" ≠ .flags := target_ne_flags_of_value hlook
  obtain ⟨-, -, hoffered⟩ := open_subcommands_are_offered hrun hawaits {} .empty
    subcommandRequest ht
  obtain ⟨answer, hanswer, hadd⟩ := hoffered hdests "add" default hfeed (by decide)
  exact ⟨g, s, slot, subs, answer, hbuild, hrun, hawaits, ht, hfeed, hanswer, hadd⟩

/-- **A value of another argument hides a subcommand**, where the flag was given the destination of
the subcommands, and where it was given the empty one that these have without a destination. -/
theorem mode_hides_subcommand :
    (∃ g s slot subs answer, (switching none (some "mode")).build = .ok g ∧
      feedAll g (start g) ["--mode", "add"] = .ok (.next s) ∧ s.AwaitsSubcommand slot subs ∧
      s.target g "" ≠ .flags ∧ s.feed g "add" = .ok (.delegate default) ∧
      s.complete g {} .empty subcommandRequest = .ok answer ∧
      answer.completions.values = ["remove"]) ∧
    ∃ g s slot subs answer, (switching (some "") none).build = .ok g ∧
      feedAll g (start g) ["--mode", "add"] = .ok (.next s) ∧ s.AwaitsSubcommand slot subs ∧
      s.target g "" ≠ .flags ∧ s.feed g "add" = .ok (.delegate default) ∧
      s.complete g {} .empty subcommandRequest = .ok answer ∧
      answer.completions.values = ["remove"] :=
  ⟨⟨_, _, _, _, _, rfl, rfl, ⟨rfl, rfl, rfl, rfl⟩, target_ne_flags_of_value rfl, rfl, rfl, rfl⟩,
    ⟨_, _, _, _, _, rfl, rfl, ⟨rfl, rfl, rfl, rfl⟩, target_ne_flags_of_value rfl, rfl, rfl, rfl⟩⟩

end Replay

end TabCompletion
