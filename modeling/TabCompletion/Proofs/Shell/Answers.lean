import TabCompletion.Grammar.Builder
import TabCompletion.Proofs.Line.Trimmed
import TabCompletion.Shell.Reply

/-!
# What the shell makes of a line

An accepted line is answered by its words (`Answers`). They are the words of the trimmed line, and those
of the line itself where the reader takes the white space around it into no word.

Main statement: `respond_reads_words`.
-/

namespace TabCompletion.CommandSet

variable {set : CommandSet} {line : String} {words : List (List Char)}

/-- The answer to a line by its words: none if there are none; the help text for the words after the
built-in command; the line as it is `shown`, if the first word is a command; or that there is no such
command. -/
inductive Answers (set : CommandSet) (shown : String) : List String → Option String → Prop where
  | nothing : Answers set shown [] none
  | help (topic : List String) :
      Answers set shown (helpCommand :: topic) (some (Text.trimEnd (set.helpText topic)))
  | echo {command : String} (rest : List String) (hne : command ≠ helpCommand)
      (hcommand : (set.get? command).isSome = true) :
      Answers set shown (command :: rest) (some shown)
  | unknown {command : String} (rest : List String) (hne : command ≠ helpCommand)
      (hcommand : set.get? command = none) :
      Answers set shown (command :: rest) (some ("Unknown command: " ++ command))

/-- Only a line without words is not answered. -/
theorem Answers.eq_nil {shown : String} {ws : List String} (h : set.Answers shown ws none) :
    ws = [] := by
  cases h
  rfl

/-- A line that can be read is answered by the words of the trimmed line. -/
theorem respond_answers (h : Line.split (Text.trim line).toList = some words) :
    set.Answers (Text.trim line) (words.map String.ofList) (set.respond line) := by
  have hwords : wordsOf (Text.trim line) = words.map String.ofList := by
    rw [wordsOf, h, Option.getD_some]
  unfold respond
  dsimp only
  rw [hwords]
  by_cases hempty : (Text.trim line).isEmpty = true
  · rw [String.isEmpty_iff.mp hempty] at h
    cases h
    rw [if_pos hempty]
    exact .nothing
  · rw [if_neg hempty]
    cases words.map String.ofList with
    | nil => exact .nothing
    | cons command rest =>
        dsimp only
        split
        · next hhelp =>
            subst hhelp
            exact .help rest
        · next hne =>
            split
            · next hcommand => exact .echo rest hne hcommand
            · next hcommand => exact .unknown rest hne (by simpa using hcommand)

/-- **An accepted line is answered by its shell words.** Where the trimmed line can be read, the answer
is by its words. Where the line itself can be read and the white space around it is taken into no
word, those are the words of the line; and completion sees them too, unless it takes a quote to be
open at the end of the line and the line does not end in a comment. -/
theorem respond_reads_words (set : CommandSet) (line : String) :
    (∀ words, Line.split (Text.trim line).toList = some words →
      set.Answers (Text.trim line) (words.map String.ofList) (set.respond line)) ∧
    ∀ words, Line.split line.toList = some words →
      (Line.OuterBlankPassed line →
        set.Answers (Text.trim line) (words.map String.ofList) (set.respond line)) ∧
      ((Line.boundary line.toList).quote = none ∨
          (Line.Place.between.run line.toList).1 = .comment →
        (Line.splitForCompletion line).words = words.map String.ofList ++
          if (Line.boundary line.toList).begidx = (Line.boundary line.toList).position then [""]
          else []) := by
  refine ⟨fun words => respond_answers, ?_⟩
  intro words hwords
  refine ⟨?_, Line.splitForCompletion_words_of_split hwords⟩
  intro hpassed
  exact respond_answers (hpassed.split_trim.trans hwords)

def stopping : GrammarSpec := { prog := "stop", items := [.arg { name := some "service" }] }

/-- A comment with an apostrophe in front, a quoted word, and a form feed in a comment at the end. -/
def commentedStop : String := " \t# it's\n stop 'a b' # \x0c"

theorem commented_stop_is_read :
    ∃ g, stopping.build = .ok g ∧
      Line.split commentedStop.toList = some ["stop".toList, "a b".toList] ∧
      Line.OuterBlankPassed commentedStop ∧
      (Line.Place.between.run commentedStop.toList).1 = .comment ∧
      (⟨[g]⟩ : CommandSet).Answers "# it's\n stop 'a b' #" ["stop", "a b"]
        ((⟨[g]⟩ : CommandSet).respond commentedStop) ∧
      (Line.splitForCompletion commentedStop).words = ["stop", "a b"] := by
  have hsplit : Line.split commentedStop.toList = some ["stop".toList, "a b".toList] := by
    decide +kernel
  have hpassed : Line.OuterBlankPassed commentedStop := ⟨by decide +kernel, by decide +kernel⟩
  have hcomment : (Line.Place.between.run commentedStop.toList).1 = .comment := by decide +kernel
  have htrim : Text.trim commentedStop = "# it's\n stop 'a b' #" := by decide +kernel
  obtain ⟨g, hg⟩ : ∃ g, stopping.build = .ok g := ⟨_, rfl⟩
  obtain ⟨hanswer, hseen⟩ := (respond_reads_words ⟨[g]⟩ commentedStop).2 _ hsplit
  refine ⟨g, hg, hsplit, hpassed, hcomment, ?_, (hseen (Or.inr hcomment)).trans ?_⟩
  · have hanswer := hanswer hpassed
    rwa [htrim] at hanswer
  · decide +kernel

/-- **White space around a line may belong to its words**: where it is no separator, and where it stands
after a backslash. And completion may see other words, where a comment has a quote. -/
theorem outer_blank_belongs_to_words :
    (¬∀ (set : CommandSet) (line : String) (words : List (List Char)),
      Line.split line.toList = some words →
        set.Answers (Text.trim line) (words.map String.ofList) (set.respond line)) ∧
    ((⟨[]⟩ : CommandSet).respond "\u00a0" = none ∧
      Line.split "\u00a0".toList = some ["\u00a0".toList]) ∧
    ((⟨[]⟩ : CommandSet).respond "help a\\ " = some "No help on a\\" ∧
      Line.split "help a\\ ".toList = some ["help".toList, "a ".toList]) ∧
    ((Line.splitForCompletion "# it's\nstop").words = ["#", "it's", "stop"] ∧
      Line.split "# it's\nstop".toList = some ["stop".toList]) := by
  refine ⟨?_, by decide +kernel, by decide +kernel, by decide +kernel⟩
  intro h
  have hanswer := h ⟨[]⟩ "\u00a0" ["\u00a0".toList] (by decide +kernel)
  have hnone : (⟨[]⟩ : CommandSet).respond "\u00a0" = none := by decide +kernel
  rw [hnone] at hanswer
  exact absurd hanswer.eq_nil (List.cons_ne_nil _ _)

end TabCompletion.CommandSet
