import TabCompletion.Proofs.Replay.Offered
import TabCompletion.Proofs.Resolve.Descent
import TabCompletion.Shell.Commands

/-!
# What the user is told

Completing a line tells the user something only where it has no candidates to show: a hint at the
argument in question, where the grammar that the words lead to finds nothing for it (`HintDue`), or
the complaint of the engine, whatever grammar it comes from (`complete_messages`).
-/

namespace TabCompletion

variable {g : Grammar} {s : Replay} {host : Host} {parents : ArgTokens} {line words : List String}
  {request : CompletionRequest} {p : Progress} {d : ArgDef Grammar} {answer : Answer} {text : String}

/-! ## Hints -/

theorem Scope.hintFor_eq {scope : Scope} (henabled : scope.host.settings.hints = true)
    (hshown : d.hidden = false) (hwanted : d.suppressTabHint = false) :
    scope.hintFor d = { hint := some ("\n" ++ d.hint) } := by
  simp [hintFor, henabled, hshown, hwanted]

/-- A hint is given only where hints are on, at an argument that is shown and wants it. -/
theorem Scope.hintFor_eq_some {scope : Scope} (h : (scope.hintFor d).hint = some text) :
    scope.host.settings.hints = true ∧ d.hidden = false ∧ d.suppressTabHint = false := by
  unfold hintFor at h
  split at h
  · contradiction
  · next hoff =>
      simp only [Bool.or_eq_true, not_or, Bool.not_eq_true, Bool.not_eq_false'] at hoff
      exact ⟨hoff.1.1, hoff.1.2, hoff.2⟩

namespace Replay

/-- Completing a word comes to an argument that has no candidates for it, where the word cannot begin
a flag either: flags are not read, the active flag is in want of values, or the word is no prefix
character. Hints are on, and the argument is shown and wants them. -/
structure HintDue (s : Replay) (g : Grammar) (host : Host) (parents : ArgTokens)
    (request : CompletionRequest) (p : Progress) : Prop where
  asked : (s.target g request.text).argument? = some p
  noCandidates : ∃ c, ({ host, parents, values := s.values } : Scope).completeArg p.arg request =
    .ok c ∧ c.items = []
  noFlag : s.checkFlag ≠ .ok () ∨ g.isSinglePrefixChar request.text = false ∨ s.flagsOff = true
  enabled : host.settings.hints = true
  shown : p.arg.hidden = false
  wanted : p.arg.suppressTabHint = false

theorem noFlag_iff (hr : s.receiver = some p) :
    ((s.flag.isSome && p.isUnfinished) || !g.isSinglePrefixChar text || s.flagsOff) = true ↔
      s.checkFlag ≠ .ok () ∨ g.isSinglePrefixChar text = false ∨ s.flagsOff = true := by
  rw [Ne, checkFlag_eq_ok_of_receiver hr, Bool.not_eq_false, Bool.or_eq_true, Bool.or_eq_true,
    Bool.not_eq_true', or_assoc]

theorem HintDue.complete_eq (h : s.HintDue g host parents request p) :
    s.complete g host parents request = .ok { hint := some ("\n" ++ p.arg.hint) } := by
  obtain ⟨ht, hr⟩ := receiver_of_asked h.asked
  obtain ⟨c, hc, hitems⟩ := h.noCandidates
  rw [complete_eq_completeValue ht hr, completeValue_of_nil hc hitems,
    if_pos ((noFlag_iff hr).mpr h.noFlag), Scope.hintFor_eq h.enabled h.shown h.wanted]

theorem exists_hintDue (hanswer : s.complete g host parents request = .ok answer)
    (hhint : answer.hint = some text) : ∃ p, s.HintDue g host parents request p := by
  by_cases ht : s.target g request.text = .flags
  · simp only [complete, ht] at hanswer
    cases hdone : s.checkFlag with
    | error e => simp [hdone] at hanswer
    | ok u =>
        rw [hdone] at hanswer
        cases hanswer
        contradiction
  · cases hr : s.receiver with
    | none =>
        simp only [complete, (target_eq_nothing_iff ht).mpr hr] at hanswer
        split at hanswer
        · cases hanswer
          contradiction
        · cases hanswer
          contradiction
    | some p =>
        have hasked := (argument?_target ht).trans hr
        rw [complete_eq_completeValue ht hr] at hanswer
        cases hc : ({ host, parents, values := s.values } : Scope).completeArg p.arg request with
        | error e => simp [completeValue, hc] at hanswer
        | ok c =>
            by_cases hitems : c.items = []
            · rw [completeValue_of_nil hc hitems] at hanswer
              split at hanswer
              · next hno =>
                  cases hanswer
                  obtain ⟨henabled, hshown, hwanted⟩ := Scope.hintFor_eq_some hhint
                  exact ⟨p, hasked, ⟨c, hc, hitems⟩, (noFlag_iff hr).mp hno, henabled, hshown, hwanted⟩
              · cases hanswer
                contradiction
            · -- Candidates are the answer, without a hint.
              have hfirst := (asksFirst ht hr).answer c hc hitems
              rw [complete_eq_completeValue ht hr, hanswer] at hfirst
              cases hfirst
              contradiction

/-- **A hint is given just where it is due**, and is all that is answered there. -/
theorem complete_hint_iff :
    s.complete g host parents request = .ok answer ∧ answer.hint = some text ↔
      ∃ p, s.HintDue g host parents request p ∧ text = "\n" ++ p.arg.hint ∧
        answer = { hint := some text } := by
  constructor
  · rintro ⟨hanswer, hhint⟩
    obtain ⟨p, hdue⟩ := exists_hintDue hanswer hhint
    cases hanswer.symm.trans hdue.complete_eq
    cases hhint
    exact ⟨p, hdue, rfl, rfl⟩
  · rintro ⟨p, hdue, rfl, rfl⟩
    exact ⟨hdue.complete_eq, rfl⟩

end Replay

/-- **A hint comes from the grammar that the words lead to**, and stands alone. -/
theorem Grammar.tryResolve_hint_iff (hline : line ≠ []) :
    g.tryResolve host parents line request = .ok answer ∧ answer.hint = some text ↔
      (∃ down p, g.descend (.start g) (wordsBefore line request.text) = .ok down ∧
        down.state.HintDue down.grammar host (inherit parents down.levels) request p ∧
        text = "\n" ++ p.arg.hint) ∧
      answer = { hint := some text } := by
  rw [tryResolve_eq_descend hline]
  cases hdown : g.descend (.start g) (wordsBefore line request.text) with
  | error e => simp [Except.bind]
  | ok down =>
      show down.state.complete _ _ _ _ = _ ∧ _ ↔ _
      rw [Replay.complete_hint_iff]
      constructor
      · rintro ⟨p, hdue, htext, hanswer⟩
        exact ⟨⟨down, p, rfl, hdue, htext⟩, hanswer⟩
      · rintro ⟨⟨down', p, hsame, hdue, htext⟩, hanswer⟩
        cases hsame
        exact ⟨p, hdue, htext, hanswer⟩

/-! ## Messages of the engine -/

namespace Grammar

theorem resolve_of_error {e : Interruption} (h : g.tryResolve host parents line request = .error e) :
    g.resolve host parents line request =
      ({}, if e.isReported then some ⟨.error, "\n" ++ e.message ++ "\n"⟩ else none) := by
  rw [resolve, h]

theorem resolve_of_ok (h : g.tryResolve host parents line request = .ok answer) :
    g.resolve host parents line request =
      (answer.completions, answer.hint.map fun text => ⟨.hint, text⟩) := by
  rw [resolve, h]

/-- **An error is shown just if resolving fails with one that is reported.** -/
theorem resolve_error_iff :
    (g.resolve host parents line request).2 = some ⟨.error, text⟩ ↔
      ∃ e, g.tryResolve host parents line request = .error e ∧ e.isReported = true ∧
        text = "\n" ++ e.message ++ "\n" := by
  cases h : g.tryResolve host parents line request with
  | error e =>
      rw [resolve_of_error h]
      constructor
      · intro hmessage
        dsimp only at hmessage
        split at hmessage
        · next hreported =>
            cases hmessage
            exact ⟨e, rfl, hreported, rfl⟩
        · contradiction
      · rintro ⟨e', he, hreported, rfl⟩
        cases he
        simp only [hreported, if_true]
  | ok answer =>
      rw [resolve_of_ok h]
      simp

/-- **A hint is shown just if one is due where the words lead.** -/
theorem resolve_hint_iff (hline : line ≠ []) :
    (g.resolve host parents line request).2 = some ⟨.hint, text⟩ ↔
      ∃ down p, g.descend (.start g) (wordsBefore line request.text) = .ok down ∧
        down.state.HintDue down.grammar host (inherit parents down.levels) request p ∧
        text = "\n" ++ p.arg.hint := by
  have hgiven : (g.resolve host parents line request).2 = some ⟨.hint, text⟩ ↔
      ∃ answer, g.tryResolve host parents line request = .ok answer ∧ answer.hint = some text := by
    cases h : g.tryResolve host parents line request with
    | error e =>
        rw [resolve_of_error h]
        cases e.isReported <;> simp
    | ok answer =>
        rw [resolve_of_ok h]
        simp
  rw [hgiven]
  simp only [tryResolve_hint_iff hline, exists_and_left, exists_eq, and_true]

/-- **Where a message is shown there are no candidates.** -/
theorem resolve_items_of_message (hline : line ≠ []) {m : Message}
    (h : (g.resolve host parents line request).2 = some m) :
    (g.resolve host parents line request).1.items = [] := by
  cases hresolve : g.tryResolve host parents line request with
  | error e => rw [resolve_of_error hresolve]
  | ok answer =>
      rw [resolve_of_ok hresolve] at h ⊢
      obtain ⟨text, hhint, -⟩ := Option.map_eq_some_iff.mp h
      rw [((tryResolve_hint_iff hline).mp ⟨hresolve, hhint⟩).2]

end Grammar

/-! ## Messages of a shell -/

namespace CommandSet

/-- The words up to a byte of a line, the last of which is completed. -/
def wordsAt (line : String) (pos : Nat) : List String :=
  (Line.splitForCompletion (headOf line pos)).words

/-- What is asked where the word that ends at a byte of a line is completed. -/
def requestAt (line : String) (pos : Nat) : CompletionRequest :=
  let split := Line.splitForCompletion (headOf line pos)
  { text := split.text
    line
    begidx := split.begidx
    endidx := Text.byteLength (headOf line pos).toList }

/-- The command whose arguments are completed: the one that the first word names, if another word
follows and it is not the built-in command. -/
def engine? (set : CommandSet) (words : List String) : Option Grammar :=
  match words with
  | command :: _ :: _ => if command = helpCommand then none else set.get? command
  | _ => none

variable {set : CommandSet}

theorem completeWords_of_engine (h : set.engine? words = some g) :
    set.completeWords host words request = g.resolve host .empty words request := by
  unfold engine? at h
  split at h
  · split at h
    · contradiction
    · next hhelp => simp only [completeWords, if_neg hhelp, h]
  · contradiction

/-- Without a command to ask there is nothing to tell. -/
theorem completeWords_of_none (h : set.engine? words = none) :
    (set.completeWords host words request).2 = none := by
  unfold engine? at h
  unfold completeWords
  split
  · next command topic rest =>
      split
      · rfl
      · next hhelp =>
          simp only [if_neg hhelp] at h
          rw [h]
  · rfl

theorem ne_nil_of_engine (h : set.engine? words = some g) : words ≠ [] := by
  rintro rfl
  contradiction

section Complete

variable {line : String} {pos : Nat} {m : Message}

/-- **Only the engine of the command that is asked tells the user anything.** -/
theorem complete_message_iff :
    (set.complete host line pos).2 = some m ↔
      ∃ g, set.engine? (wordsAt line pos) = some g ∧
        (g.resolve host .empty (wordsAt line pos) (requestAt line pos)).2 = some m := by
  show (set.completeWords host (wordsAt line pos) (requestAt line pos)).2 = some m ↔ _
  cases hengine : set.engine? (wordsAt line pos) with
  | none =>
      rw [completeWords_of_none hengine]
      simp
  | some g =>
      rw [completeWords_of_engine hengine]
      simp

theorem complete_items_of_message (h : (set.complete host line pos).2 = some m) :
    (set.complete host line pos).1.completions.items = [] := by
  obtain ⟨g, hengine, hmessage⟩ := complete_message_iff.mp h
  show List.map _ (set.completeWords host (wordsAt line pos) (requestAt line pos)).1.items = []
  rw [completeWords_of_engine hengine]
  rw [Grammar.resolve_items_of_message (ne_nil_of_engine hengine) hmessage]
  rfl

end Complete

/-- **What the user is told.** Completing a word of a line sends at most one message, and none if there
are candidates. It sends an error just if a command is asked and its engine fails with an error that
is reported, and then there are no candidates and no hint is sent; an unknown subcommand sends
nothing. It sends a hint just if one is due at the argument that the words lead to: hints are on
then, and the argument is neither hidden nor without hints. -/
theorem complete_messages (set : CommandSet) (host : Host) (line : String) (pos : Nat) :
    let words := wordsAt line pos
    let request := requestAt line pos
    let items := (set.complete host line pos).1.completions.items
    let sent := (set.complete host line pos).2.toList
    sent.length ≤ 1 ∧ (items ≠ [] → sent = []) ∧
      (∀ text, ⟨.error, text⟩ ∈ sent ↔
        ∃ g e, set.engine? words = some g ∧ g.tryResolve host .empty words request = .error e ∧
          e.isReported = true ∧ text = "\n" ++ e.message ++ "\n") ∧
      (∀ text, ⟨.error, text⟩ ∈ sent → items = [] ∧ ∀ hint, ⟨.hint, hint⟩ ∉ sent) ∧
      (∀ g name, set.engine? words = some g →
        g.tryResolve host .empty words request = .error (.unknownSubcommand name) → sent = []) ∧
      ∀ text, ⟨.hint, text⟩ ∈ sent ↔
        ∃ g down p, set.engine? words = some g ∧
          g.descend (.start g) (Grammar.wordsBefore words request.text) = .ok down ∧
          down.state.HintDue down.grammar host (Grammar.inherit .empty down.levels) request p ∧
          text = "\n" ++ p.arg.hint := by
  intro words request items sent
  have hmem : ∀ m, m ∈ sent ↔
      ∃ g, set.engine? words = some g ∧ (g.resolve host .empty words request).2 = some m :=
    fun m => Option.mem_toList.trans complete_message_iff
  have hitems : ∀ m, m ∈ sent → items = [] :=
    fun m hm => complete_items_of_message (Option.mem_toList.mp hm)
  refine ⟨Option.length_toList_le, ?_, ?_, ?_, ?_, ?_⟩
  · intro hcandidates
    apply List.eq_nil_iff_forall_not_mem.mpr
    intro m hm
    exact hcandidates (hitems m hm)
  · intro text
    rw [hmem]
    simp only [Grammar.resolve_error_iff, exists_and_left]
  · intro text herror
    refine ⟨hitems _ herror, ?_⟩
    intro hint hhint
    -- What is sent is one message, which is not of both kinds.
    have hboth := (Option.mem_toList.mp herror).symm.trans (Option.mem_toList.mp hhint)
    simp at hboth
  · intro g name hengine hunknown
    apply List.eq_nil_iff_forall_not_mem.mpr
    intro m hm
    obtain ⟨g', hengine', hmessage⟩ := (hmem m).mp hm
    cases hengine.symm.trans hengine'
    rw [Grammar.resolve_of_error hunknown] at hmessage
    contradiction
  · intro text
    rw [hmem]
    constructor
    · rintro ⟨g, hengine, hmessage⟩
      obtain ⟨down, p, hdue⟩ :=
        (Grammar.resolve_hint_iff (ne_nil_of_engine hengine)).mp hmessage
      exact ⟨g, down, p, hengine, hdue⟩
    · rintro ⟨g, down, p, hengine, hdue⟩
      exact ⟨g, hengine, (Grammar.resolve_hint_iff (ne_nil_of_engine hengine)).mpr ⟨down, p, hdue⟩⟩

def greeting : GrammarSpec :=
  { prog := "greet"
    items := [.arg { name := some "name" }, .arg { aliases := ["--to"] }] }

example : ∃ g, greeting.build = .ok g ∧
    ((⟨[g]⟩ : CommandSet).complete {} "greet a" 7).2 = some ⟨.hint, "\nHint:\n  name\n"⟩ ∧
    ((⟨[g]⟩ : CommandSet).complete {} "greet --to --" 13).2 =
      some ⟨.error, "\nError: argument --to: expected 1 argument (0 entered)\n"⟩ :=
  ⟨_, rfl, rfl, rfl⟩

end CommandSet

end TabCompletion
