import TabCompletion.Proofs.Completion.Tables
import TabCompletion.Proofs.Shell.Messages
import TabCompletion.Shell.Suggestion

/-!
# The argument that a line is completed for

The words before the cursor lead to an argument of a grammar (`CommandSet.Asks`). Its candidates are
those of the line, quoted where they have to be (`Asks.complete_eq`).
-/

namespace TabCompletion

/-- The surroundings in which an argument is completed where the words lead to. -/
def Descent.scope (down : Descent) (host : Host) : Scope :=
  { host, parents := Grammar.inherit .empty down.levels, values := down.state.values }

namespace CommandSet

/-- At the byte `pos` of a line a value of `p` is completed: a command is asked, and its words lead to
a state in which `p` takes the word under the cursor. -/
structure Asks (set : CommandSet) (line : String) (pos : Nat) (down : Descent) (p : Progress) :
    Prop where
  engine : ∃ g, set.engine? (wordsAt line pos) = some g ∧
    g.descend (.start g) (Grammar.wordsBefore (wordsAt line pos) (requestAt line pos).text) =
      .ok down
  asked : (down.state.target down.grammar (requestAt line pos).text).argument? = some p

variable {set : CommandSet} {host : Host} {line : String} {pos : Nat} {down : Descent} {p : Progress}
  {c : Completions}

/-- A line asks for one argument. -/
theorem Asks.unique {down' : Descent} {p' : Progress} (h : set.Asks line pos down p)
    (h' : set.Asks line pos down' p') : down = down' ∧ p = p' := by
  obtain ⟨g, hengine, hdown⟩ := h.engine
  obtain ⟨g', hengine', hdown'⟩ := h'.engine
  cases hengine.symm.trans hengine'
  cases hdown.symm.trans hdown'
  exact ⟨rfl, Option.some.inj (h.asked.symm.trans h'.asked)⟩

/-- **The candidates of the argument are those of the line**, if it has any. -/
theorem Asks.complete_eq (h : set.Asks line pos down p)
    (hc : (down.scope host).completeArg p.arg (requestAt line pos) = .ok c) (hitems : c.items ≠ []) :
    (set.complete host line pos).1.completions = c.written Line.quoteCandidate := by
  obtain ⟨g, hengine, hdown⟩ := h.engine
  obtain ⟨htarget, hreceiver⟩ := Replay.receiver_of_asked h.asked
  have hanswer : g.tryResolve host .empty (wordsAt line pos) (requestAt line pos) =
      .ok { completions := c } := by
    rw [Grammar.tryResolve_eq_descend (ne_nil_of_engine hengine), hdown]
    exact (Replay.asksFirst htarget hreceiver).answer c hc hitems
  have hfound : (set.completeWords host (wordsAt line pos) (requestAt line pos)).1 = c := by
    rw [completeWords_of_engine hengine, Grammar.resolve_of_ok hanswer]
  exact congrArg (Completions.written Line.quoteCandidate) hfound

end CommandSet

end TabCompletion
