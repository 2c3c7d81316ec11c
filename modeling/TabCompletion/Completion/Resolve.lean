import TabCompletion.Completion.Host
import TabCompletion.Completion.Replay
import TabCompletion.Completion.Table

/-!
# Completing the last word

The words before the last are replayed, handing over to nested grammars on the way; the state they
leave decides what the last word is completed as (`Replay.target`). `tryResolve` gives the
candidates, or why there are none; `resolve` turns the latter into a message.
-/

namespace TabCompletion

/-- What the word under the cursor is completed as in the first place. -/
inductive Target where
  /-- A flag. -/
  | flags
  /-- A value of the flag that is taking values. -/
  | flagValue (p : Progress)
  /-- A value of the active or the next positional. -/
  | positional (p : Progress)
  /-- Nothing: no argument takes a word here. -/
  | nothing

def Replay.target (g : Grammar) (s : Replay) (text : String) : Target :=
  -- A lone prefix character does not look like a flag: it may begin a negative number.
  if g.looksLikeFlag text && !s.flagsOff then .flags
  else
    match s.flag with
    | some p => .flagValue p
    | none =>
      match s.nextPositional with
      | some p => .positional p
      | none => .nothing

/-- The answer to a request: candidates, or a hint in their place. -/
structure Answer where
  completions : Completions := {}
  hint : Option String := none
  deriving DecidableEq, Repr

/-- The surroundings in which an argument is completed: the host, the values that the ancestors of
the grammar consumed, and those consumed here. -/
structure Scope where
  host : Host
  parents : ArgTokens
  values : ArgTokens

namespace Completions

def allNumeric (choices : List Choice) : Bool := choices.all (·.value.isNumeric)

/-- The choices in the order they are offered in: by value if all are numbers. -/
def orderChoices (choices : List Choice) : List Choice :=
  if allNumeric choices then
    Sorting.stableSort (fun a b => a.value.below b.value) choices
  else choices

/-- Whether a choice begins with `text` and is not among the values given already. -/
def isOpen (text : String) (used : List String) (c : Choice) : Bool :=
  !used.contains c.value.display && Text.beginsWith c.value.display text

def itemOf (c : Choice) : CompletionItem :=
  { value := c.value.display, description := c.description }

def ofChoices (choices : List Choice) (text : String) (used : List String) : Completions :=
  { items := ((orderChoices choices).filter (isOpen text used)).map itemOf
    sorted := allNumeric choices }

/-- Add a table if there are several candidates, not too many, and the first has a description. -/
def withTable (c : Completions) (host : Host) (dest : String) (header : Option String) :
    Completions :=
  let described := c.items.head?.any (·.description.isSome)
  if 1 < c.items.length && c.items.length ≤ host.settings.maxItems && described then
    -- The rows stand in display order, and so do the candidates from here on.
    let items := c.displayOrder.items
    { items
      sorted := true
      table := some (Table.describe items dest
        (header.getD host.settings.descriptiveHeader) host.width) }
  else c

end Completions

namespace Scope

variable (scope : Scope)

/-- The values that a source is given: those of the ancestors, those consumed here, and the word
under the cursor as a value of the argument itself. -/
def tokensFor (dest text : String) : ArgTokens :=
  (scope.parents.overlay scope.values).push dest text

/-- The candidates for a value of an argument, before a table is laid out. -/
def candidates (d : ArgDef Grammar) (request : CompletionRequest) :
    Except SourceFailure Completions :=
  let used := (scope.values.get? d.dest).getD []
  let tokens (wanted : Bool) : Option ArgTokens :=
    if wanted then some (scope.tokensFor d.dest request.text) else none
  match d.subcommands? with
  | some subs =>
    .ok (.ofChoices (subs.map fun p => .ofText p.1) request.text used)
  | none =>
    match d.choices with
    | none => .ok {}
    | some (.fixed choices) => .ok (.ofChoices choices request.text used)
    | some (.provider wants choices) =>
      (choices (tokens wants)).map fun cs => .ofChoices cs request.text used
    -- What a completer gives is neither filtered nor ordered.
    | some (.completer wants complete) =>
      (complete request (tokens wants)).map fun cs => { items := cs.map Completions.itemOf }

def completeArg (d : ArgDef Grammar) (request : CompletionRequest) :
    Except Interruption Completions :=
  match scope.candidates d request with
  | .error failure => .error (.choiceSource d.displayName failure)
  | .ok c => .ok (c.withTable scope.host d.dest d.descriptiveHeader)

/-- The answer where an argument has no candidates: a hint, unless hints are off or the argument is
hidden or wants none. -/
def hintFor (d : ArgDef Grammar) : Answer :=
  if !scope.host.settings.hints || d.hidden || d.suppressTabHint then {}
  else { hint := some ("\n" ++ d.hint) }

end Scope

namespace Replay

variable (g : Grammar) (s : Replay)

/-- The spellings of shown flags that are still offered and begin with `text`. -/
def offeredFlags (text : String) : List String :=
  let entries := g.flagTable.filter fun e => !s.used.contains e.1 && !e.2.arg.hidden
  beginningWith text (entries.map (·.1))

def completeFlags (text : String) : Answer :=
  { completions := .ofValues (s.offeredFlags g text) }

def completeValue (host : Host) (parents : ArgTokens) (p : Progress) (isFlag : Bool)
    (request : CompletionRequest) : Except Interruption Answer :=
  let scope : Scope := { host, parents, values := s.values }
  match scope.completeArg p.arg request with
  | .error e => .error e
  | .ok c =>
    if !c.items.isEmpty then .ok { completions := c }
    -- A lone prefix character may still begin a flag, if the active flag has the values it needs.
    else if (isFlag && p.isUnfinished) || !g.isSinglePrefixChar request.text || s.flagsOff then
      .ok (scope.hintFor p.arg)
    else .ok (s.completeFlags g request.text)

def complete (host : Host) (parents : ArgTokens) (request : CompletionRequest) :
    Except Interruption Answer :=
  match s.target g request.text with
  | .flags =>
    match s.checkFlag with
    | .error e => .error e
    | .ok () => .ok (s.completeFlags g request.text)
  | .flagValue p => s.completeValue g host parents p true request
  | .positional p => s.completeValue g host parents p false request
  | .nothing =>
    if g.isSinglePrefixChar request.text && !s.flagsOff then .ok (s.completeFlags g request.text)
    else .ok {}

end Replay

/-! ### The whole line -/

/-- The words of a request, the last of which is the one under the cursor. -/
def normalizeWords (words : List String) (text : String) : List String :=
  match words.getLast? with
  | none => []
  -- An empty word under the cursor may have been left out, and is put back.
  | some last => if text.isEmpty && !last.isEmpty then words ++ [""] else words

namespace Grammar

/-- The values passed down to a subcommand: those of the ancestors, those consumed here, and the
subcommand's name where it is recorded. -/
def passedDown (g : Grammar) (parents values : ArgTokens) (name : String) : ArgTokens :=
  let merged := parents.overlay values
  match g.dispatch? with
  | some s => if s.arg.recordsDest then merged.insert s.arg.dest [name] else merged
  | none => merged

/-- Replay words up to the last one, which is completed. -/
def resolveFrom (host : Host) (request : CompletionRequest) (g : Grammar) (parents : ArgTokens)
    (s : Replay) : List String → Except Interruption Answer
  | [] => s.complete g host parents request
  | [_] => s.complete g host parents request
  | word :: next :: rest =>
    match s.feed g word with
    | .error e => .error e
    | .ok (.next s) => resolveFrom host request g parents s (next :: rest)
    | .ok (.delegate child) =>
      resolveFrom host request child (g.passedDown parents s.values word) (.start child)
        (next :: rest)

/-- The candidates for the last of the words, the first of which is the command's name; or the
condition that ends the request early. -/
def tryResolve (g : Grammar) (host : Host) (parents : ArgTokens) (words : List String)
    (request : CompletionRequest) : Except Interruption Answer :=
  match normalizeWords words request.text with
  | [] => .ok {}
  | _ :: rest => resolveFrom host request g parents (.start g) rest

/-- The candidates for the last of the words, and the message to show where there are none. -/
def resolve (g : Grammar) (host : Host) (parents : ArgTokens) (words : List String)
    (request : CompletionRequest) : Completions × Option Message :=
  match g.tryResolve host parents words request with
  | .ok answer => (answer.completions, answer.hint.map fun text => ⟨.hint, text⟩)
  | .error e =>
    ({}, if e.isReported then some ⟨.error, "\n" ++ e.message ++ "\n"⟩ else none)

end Grammar

end TabCompletion
