import TabCompletion.Shell.Commands

/-!
# What the shell answers to a line

Commands are not run: an accepted line is echoed, a request for help is answered, anything else is
reported. `completeLine` lists the candidates at the end of a line, one per line of text.
-/

namespace TabCompletion.CommandSet

variable (set : CommandSet)

/-- The words of a line, split at white space where quotes do not match. -/
def wordsOf (line : String) : List String :=
  ((Line.split line.toList).getD (Text.words line.toList)).map String.ofList

/-- The answer to an accepted line, if it has words. -/
def respond (line : String) : Option String :=
  let trimmed := Text.trim line
  if trimmed.isEmpty then none
  else
    match wordsOf trimmed with
    | [] => none
    | command :: rest =>
      if command = helpCommand then some (Text.trimEnd (set.helpText rest))
      else if (set.get? command).isSome then some trimmed
      else some ("Unknown command: " ++ command)

/-- The lines that candidates in display order are printed as: the rows of their table under its
header, or their values. -/
def printedLines (c : Completions) : List String :=
  match c.table with
  | some t =>
    String.ofList (t.header.toList.dropWhile (· == '\n')) :: t.entries.map Text.trimEnd
  | none => c.values

/-- The candidates at the end of a line, printed, and the message shown where there are none. -/
def completeLine (host : Host) (line : String) : String × Option Message :=
  let (result, message) := set.complete host line (Text.byteLength line.toList)
  let lines := printedLines result.completions.displayOrder
  (String.join (lines.map (· ++ "\n")), message)

end TabCompletion.CommandSet
