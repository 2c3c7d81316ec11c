import TabCompletion.Proofs.Replay.Offered
import TabCompletion.Proofs.Resolve.Delegation
import TabCompletion.Shell.Commands

/-!
# Topics and pages of help

Completing the topic of a request for help and showing its page are two walks from subcommand to
subcommand. Both follow the same words (`Grammar.follow?`), as far as these name subcommands: topics
are then completed in the grammar that was reached (`helpTopicsFrom_of_follow`), and the page is that
of the grammar that was reached (`helpFrom_of_follow`).

What is offered after such words are the subcommands that the last word begins, unless the last word
names a subcommand itself: it is followed like those before it, and nothing is left to complete
(`topics_after_path`). Every topic that is offered names the page that is shown for it
(`topics_and_pages_agree`).
-/

namespace TabCompletion

variable {g c child : Grammar} {path rest : List String} {word name text command : String}

namespace Grammar

/-- The grammar that words lead to, each of which names a subcommand of the one before. -/
def follow? (g : Grammar) : List String → Option Grammar
  | [] => some g
  | word :: rest =>
    match g.subcommand? word with
    | some child => follow? child rest
    | none => none

/-! ## Names of subcommands -/

theorem subcommand?_eq_none : g.subcommand? name = none ↔ name ∉ g.subcommandNames := by
  rw [subcommand?, List.lookup_eq_none_iff, subcommandNames]
  constructor
  · intro hnone hmem
    obtain ⟨e, he, hname⟩ := List.mem_map.mp hmem
    have hne := hnone e he
    simp [hname] at hne
  · intro hmem e he
    have hne : name ≠ e.1 := fun h => hmem (List.mem_map.mpr ⟨e, he, h.symm⟩)
    simpa using hne

theorem mem_subcommandNames :
    name ∈ g.subcommandNames ↔ ∃ child, g.subcommand? name = some child := by
  rw [← Option.ne_none_iff_exists', ne_eq, subcommand?_eq_none, not_not]

/-! ## Following words -/

theorem follow?_cons :
    g.follow? (word :: rest) = some c ↔
      ∃ child, g.subcommand? word = some child ∧ child.follow? rest = some c := by
  rw [follow?]
  cases g.subcommand? word with
  | none => simp
  | some child => simp

/-- Words either lead somewhere or stop at one that names no subcommand. -/
theorem follow?_cases (g : Grammar) (path : List String) :
    (∃ c, g.follow? path = some c) ∨
      ∃ before word after c, path = before ++ word :: after ∧ g.follow? before = some c ∧
        c.subcommand? word = none := by
  induction path generalizing g with
  | nil => exact Or.inl ⟨g, rfl⟩
  | cons word rest ih =>
      cases hword : g.subcommand? word with
      | none => exact Or.inr ⟨[], word, rest, g, rfl, rfl, hword⟩
      | some child =>
          rcases ih child with ⟨c, hc⟩ | ⟨before, stop, after, c, hpath, hc, hstop⟩
          · exact Or.inl ⟨c, follow?_cons.mpr ⟨child, hword, hc⟩⟩
          · have hstart : g.follow? (word :: before) = some c := follow?_cons.mpr ⟨child, hword, hc⟩
            exact Or.inr ⟨word :: before, stop, after, c, congrArg (word :: ·) hpath, hstart, hstop⟩

/-- **Words that lead to a grammar leave the rest to be completed there.** -/
theorem helpTopicsFrom_of_follow (h : g.follow? path = some c) :
    helpTopicsFrom text g (path ++ rest) = helpTopicsFrom text c rest := by
  induction path generalizing g with
  | nil =>
      cases h
      rfl
  | cons word path ih =>
      obtain ⟨child, hword, hchild⟩ := follow?_cons.mp h
      rw [List.cons_append, helpTopicsFrom, hword]
      exact ih hchild

/-- **Words that lead to a grammar leave the page of the rest to it.** -/
theorem helpFrom_of_follow (h : g.follow? path = some c) :
    g.helpFrom (path ++ rest) = c.helpFrom rest := by
  induction path generalizing g with
  | nil =>
      cases h
      rfl
  | cons word path ih =>
      obtain ⟨child, hword, hchild⟩ := follow?_cons.mp h
      rw [List.cons_append, helpFrom, hword]
      exact ih hchild

/-! ## Topics -/

/-- The last word is completed if it names no subcommand. -/
theorem helpTopicsFrom_singleton :
    helpTopicsFrom text c [text] =
      if text ∈ c.subcommandNames then [] else beginningWith text c.subcommandNames := by
  rw [helpTopicsFrom]
  cases hword : c.subcommand? text with
  | none => rw [if_neg (subcommand?_eq_none.mp hword), List.isEmpty_nil, if_pos rfl]
  | some child =>
      rw [if_pos (mem_subcommandNames.mpr ⟨child, hword⟩)]
      rfl

/-- What is offered for the last word are names of subcommands. -/
theorem mem_of_mem_topics (h : name ∈ helpTopicsFrom text c [text]) : name ∈ c.subcommandNames := by
  rw [helpTopicsFrom_singleton] at h
  split at h
  · contradiction
  · exact (List.mem_filter.mp h).1

/-- A word before the last that names no subcommand ends the search. -/
theorem helpTopicsFrom_of_stop (hword : c.subcommand? word = none) (hrest : rest ≠ []) :
    helpTopicsFrom text c (word :: rest) = [] := by
  have hmore : rest.isEmpty = false := by simpa using hrest
  rw [helpTopicsFrom, hword, hmore, if_neg Bool.false_ne_true]

/-- A last word that is there is the one that is completed. -/
theorem completeHelpTopic_concat (g : Grammar) (command : String) (path : List String)
    (text : String) : g.completeHelpTopic (command :: path ++ [text]) text =
      helpTopicsFrom text g (path ++ [text]) := by
  have hlast : normalizeWords [text] text = [text] := by simp [normalizeWords]
  rw [completeHelpTopic, normalizeWords_append (command :: path) (List.cons_ne_nil text []), hlast,
    List.cons_append, List.drop_one, List.tail_cons]

/-- **Help on the words that lead to a grammar offers the subcommands there that the last word
begins**, in the order of their declaration, if the last word names none of them. If it names one,
nothing is offered, neither this one nor a longer one. -/
theorem topics_after_path (h : g.follow? path = some c) (command text : String) :
    (text ∉ c.subcommandNames →
      g.completeHelpTopic (command :: path ++ [text]) text =
        c.subcommandNames.filter (Text.beginsWith · text)) ∧
      (text ∈ c.subcommandNames → g.completeHelpTopic (command :: path ++ [text]) text = []) := by
  rw [completeHelpTopic_concat, helpTopicsFrom_of_follow h, helpTopicsFrom_singleton]
  constructor
  · intro hnew
    rw [if_neg hnew]
    rfl
  · intro hname
    rw [if_pos hname]

/-- A command with subcommands one of which begins like another one, and has subcommands itself. -/
def versions : GrammarSpec :=
  { prog := "vcs"
    items :=
      [.subcommand "remote" (GrammarSpec.grammar
          { prog := "remote"
            items := [.subcommand "add" default, .subcommand "apply" default] }),
        .subcommand "remote-add" default, .subcommand "tag" default] }

theorem topics_of_versions :
    ∃ g, versions.build = .ok g ∧
      g.completeHelpTopic ["vcs", "re"] "re" = ["remote", "remote-add"] ∧
      g.completeHelpTopic ["vcs", "remote", "a"] "a" = ["add", "apply"] := by
  obtain ⟨g, c, hbuild, hremote, htop, hinner⟩ :
      ∃ g c, versions.build = .ok g ∧ g.follow? ["remote"] = some c ∧
        g.subcommandNames = ["remote", "remote-add", "tag"] ∧ c.subcommandNames = ["add", "apply"] :=
    ⟨_, _, rfl, rfl, rfl, rfl⟩
  have hhere : g.follow? [] = some g := rfl
  obtain ⟨houter, -⟩ := topics_after_path hhere "vcs" "re"
  obtain ⟨hdeeper, -⟩ := topics_after_path hremote "vcs" "a"
  rw [htop] at houter
  rw [hinner] at hdeeper
  exact ⟨g, hbuild, houter (by decide), hdeeper (by decide)⟩

/-- **The full name of a subcommand is not offered**, nor are the longer names that it begins. -/
theorem full_name_offers_nothing :
    ∃ g, versions.build = .ok g ∧ g.follow? [] = some g ∧
      g.subcommandNames.filter (Text.beginsWith · "remote") = ["remote", "remote-add"] ∧
      g.completeHelpTopic ["vcs", "remote"] "remote" = [] :=
  ⟨_, rfl, rfl, rfl, rfl⟩

end Grammar

/-! ## Topics and pages -/

namespace CommandSet

variable {set : CommandSet}

/-- Help is completed by the command that it is asked on, with the words after its name. -/
theorem completeWords_help (h : set.get? command = some g) (host : Host) (path : List String)
    (request : CompletionRequest) :
    (set.completeWords host (helpCommand :: command :: path ++ [request.text]) request).1.values =
      Grammar.helpTopicsFrom request.text g (path ++ [request.text]) := by
  -- The word under the cursor follows the command's name, so it is not the name that is completed.
  obtain ⟨next, later, hnext⟩ := List.exists_cons_of_ne_nil (l := path ++ [request.text]) (by simp)
  have hset : set.completeHelp (command :: next :: later) request.text =
      g.completeHelpTopic (command :: next :: later) request.text := by
    show (match set.get? command with | some g => _ | none => _) = _
    rw [h]
  rw [← g.completeHelpTopic_concat command, List.cons_append, List.cons_append, hnext,
    completeWords, if_pos rfl, Completions.values_ofValues, hset]

theorem helpText_of_command (h : set.get? command = some g) (path : List String) :
    set.helpText (command :: path) = g.helpFrom path := by
  rw [helpText, h]
  rfl

/-- **Completing a topic and showing its page agree.** After the name of a command and any words,
every name that is offered is that of a subcommand of the grammar that the words lead to, and asking
for help on the same words and this name shows the page of this very subcommand. Where one of the
words names no subcommand of the grammar that those before it lead to, nothing is offered, and asking
for help on the words shows the page of that grammar. -/
theorem topics_and_pages_agree (h : set.get? command = some g) (host : Host) (path : List String) :
    (∀ request : CompletionRequest,
      ∀ name ∈ (set.completeWords host (helpCommand :: command :: path ++ [request.text])
          request).1.values,
        ∃ c child, g.follow? path = some c ∧ c.subcommand? name = some child ∧
          set.helpText (command :: path ++ [name]) = child.helpPage) ∧
    ∀ before word after c, path = before ++ word :: after → g.follow? before = some c →
      c.subcommand? word = none →
        (∀ request : CompletionRequest,
          (set.completeWords host (helpCommand :: command :: path ++ [request.text])
            request).1.values = []) ∧
        set.helpText (command :: path) = c.helpPage := by
  have hstop : ∀ before word after c, path = before ++ word :: after → g.follow? before = some c →
      c.subcommand? word = none → ∀ text,
        Grammar.helpTopicsFrom text g (path ++ [text]) = [] := by
    intro before word after c hpath hc hword text
    rw [hpath, List.append_assoc, Grammar.helpTopicsFrom_of_follow hc]
    exact Grammar.helpTopicsFrom_of_stop hword (by simp)
  constructor
  · intro request name hname
    rw [completeWords_help h] at hname
    rcases g.follow?_cases path with ⟨c, hc⟩ | ⟨before, word, after, c, hpath, hc, hword⟩
    · rw [Grammar.helpTopicsFrom_of_follow hc] at hname
      obtain ⟨child, hchild⟩ := Grammar.mem_subcommandNames.mp (Grammar.mem_of_mem_topics hname)
      refine ⟨c, child, hc, hchild, ?_⟩
      rw [List.cons_append, helpText_of_command h, Grammar.helpFrom_of_follow hc, Grammar.helpFrom,
        hchild]
      rfl
    · rw [hstop before word after c hpath hc hword] at hname
      contradiction
  · intro before word after c hpath hc hword
    constructor
    · intro request
      rw [completeWords_help h]
      exact hstop before word after c hpath hc hword request.text
    · rw [helpText_of_command h, hpath, Grammar.helpFrom_of_follow hc, Grammar.helpFrom, hword]

/-- The topics on two words, and where a word stands between that names no subcommand. -/
theorem pages_of_versions :
    ∃ g c child, Grammar.versions.build = .ok g ∧ g.follow? ["remote"] = some c ∧
      c.subcommand? "add" = some child ∧
      (⟨[g]⟩ : CommandSet).helpText ["vcs", "remote", "add"] = child.helpPage ∧
      (⟨[g]⟩ : CommandSet).helpText ["vcs", "nope", "add"] = g.helpPage := by
  obtain ⟨g, c, child, hbuild, hget, hremote, hadd, hstop, hoffered⟩ :
      ∃ g c child, Grammar.versions.build = .ok g ∧ (⟨[g]⟩ : CommandSet).get? "vcs" = some g ∧
        g.follow? ["remote"] = some c ∧ c.subcommand? "add" = some child ∧
        g.subcommand? "nope" = none ∧
        "add" ∈ ((⟨[g]⟩ : CommandSet).completeWords {} ["help", "vcs", "remote", "a"]
          { text := "a", line := "help vcs remote a", begidx := 16, endidx := 17 }).1.values :=
    ⟨_, _, _, rfl, rfl, rfl, rfl, rfl, by decide⟩
  obtain ⟨htopics, -⟩ := topics_and_pages_agree hget {} ["remote"]
  obtain ⟨-, hpages⟩ := topics_and_pages_agree hget {} ["nope", "add"]
  obtain ⟨c', child', hc', hchild', hpage⟩ := htopics _ "add" hoffered
  cases hremote.symm.trans hc'
  cases hadd.symm.trans hchild'
  exact ⟨g, c, child, hbuild, hremote, hadd, hpage, (hpages [] "nope" ["add"] g rfl rfl hstop).2⟩

end CommandSet

end TabCompletion
