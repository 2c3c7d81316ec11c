import TabCompletion.Completion.Progress
import TabCompletion.Grammar.Flaglike

/-!
# Replaying the words before the cursor

`Replay` is the state that the words typed so far leave a command in: which flag and which
positional are taking values, which positionals are still to come, which flags are no longer
offered. `Replay.feed` reads one word. It first decides what the word is (`Replay.reading`), then
does what that asks for; a word that names a subcommand hands everything over to its grammar.
-/

namespace TabCompletion

/-- The word after which no flags are read. -/
def endOfOptions : String := "--"

/-- What the words read so far leave a command in. -/
structure Replay where
  /-- The positionals that no word has reached yet. -/
  pending : List Slot
  /-- Whether flags are no longer read. -/
  flagsOff : Bool := false
  /-- The positional that is taking values. -/
  positional : Option Progress := none
  /-- The flag that is taking values. -/
  flag : Option Progress := none
  /-- The flag spellings that are no longer offered. -/
  used : List String := []
  /-- The values so far, by destination. -/
  values : ArgTokens := .empty
  /-- The exclusive groups that are taken, each with the member that took it. -/
  claimed : List (Nat × Slot) := []

/-- What a word is read as. -/
inductive Reading where
  /-- A value of a positional that takes everything. -/
  | remainderValue (p : Progress)
  /-- A value of a flag that takes everything up to the end of options. -/
  | remainderFlagValue (p : Progress)
  /-- The end of options, closing a flag that takes everything. -/
  | remainderFlagEnd
  | endOfOptions
  | flag
  /-- A value of the flag that is taking values. -/
  | flagValue (p : Progress)
  /-- A word for a positional. -/
  | positional

/-- The outcome of reading a word. -/
inductive Fed where
  /-- The state after the word. -/
  | next (s : Replay)
  /-- The word names a subcommand. -/
  | delegate (child : Grammar)

namespace Replay

def start (g : Grammar) : Replay := { pending := g.positionals }

variable (g : Grammar) (s : Replay)

/-- Reading may go on past the active flag only if it has the values it needs. -/
def checkFlag : Except Interruption Unit :=
  match s.flag with
  | some p => if p.isUnfinished then .error p.unfinished else .ok ()
  | none => .ok ()

def reading (word : String) : Reading :=
  -- An argument that takes everything comes first. The end of options ends such a flag, and nothing
  -- ends such a positional.
  match s.positional.filter (·.isRemainder) with
  | some p => .remainderValue p
  | none =>
    match s.flag.filter (·.isRemainder) with
    | some p =>
      if word = TabCompletion.endOfOptions then .remainderFlagEnd else .remainderFlagValue p
    | none =>
      if word = TabCompletion.endOfOptions && !s.flagsOff then .endOfOptions
      else if g.looksLikeFlag word && !s.flagsOff then .flag
      else
        match s.flag with
        | some p => .flagValue p
        | none => .positional

/-! ### Exclusive groups -/

/-- The state after `slot` takes an exclusive group: the other members are neither offered nor
waited for. -/
def withGroupTaken (group : Nat) (slot : Slot) : Replay :=
  let others := (g.groupMembers group).filter fun m => m.index != slot.index
  { s with
    claimed := (group, slot) :: s.claimed
    used := s.used ++ (others.filter (·.arg.isFlag)).flatMap (·.arg.aliases)
    pending := s.pending.filter fun p =>
      !(others.any fun m => !m.arg.isFlag && m.index == p.index) }

/-- Let an argument take its exclusive group, if it has one and no other member took it. -/
def claimGroup (slot : Slot) : Except Interruption Replay :=
  match slot.arg.group with
  | none => .ok s
  | some group =>
    match s.claimed.lookup group with
    | some owner =>
      if owner.index = slot.index then .ok s
      else .error (.mutexConflict slot.arg.displayName owner.arg.displayName)
    | none => .ok (s.withGroupTaken g group slot)

/-! ### Flags -/

/-- The values when a flag is met: a reusable flag keeps its own, another starts afresh. -/
def valuesAtFlag (slot : Slot) : ArgTokens :=
  if slot.arg.isReusable then s.values.touch slot.arg.dest
  else s.values.insert slot.arg.dest []

/-- The state after a flag was met that took its group. -/
def withFlag (slot : Slot) : Replay :=
  let met : Replay :=
    { s with
      values := s.valuesAtFlag slot
      used := if slot.arg.isReusable then s.used else s.used ++ slot.arg.aliases }
  if slot.arg.arity.takesNoValues then met
  -- Flags were read so far, or the word would not have been taken for one.
  else { met with flag := some { slot }, flagsOff := slot.arg.isRemainder }

def feedFlag (word : String) : Except Interruption Replay :=
  match g.matchFlag? word with
  -- An unknown flag is passed over; the words after it stand for themselves.
  | none => .ok s
  | some slot =>
    match s.claimGroup g slot with
    | .error e => .error e
    | .ok s => .ok (s.withFlag slot)

/-! ### Positionals -/

/-- Give a word to the positional `p`, which took its group. -/
def withPositionalValue (p : Progress) (word : String) : Replay :=
  let (p, values) := p.consume word s.values
  if p.isRemainder then { s with positional := some p, values, flagsOff := true }
  else if p.isFull then
    -- Where a positional that takes everything comes next, its first word may look like a flag.
    { s with
      positional := none
      values
      flagsOff := s.flagsOff || s.pending.head?.any (·.arg.isRemainder) }
  else { s with positional := some p, values }

def feedValue (p : Progress) (word : String) : Except Interruption Replay :=
  match s.claimGroup g p.slot with
  -- This does not come up: a positional whose group another member took is no longer waited for.
  | .error e => .error e
  | .ok s => .ok (s.withPositionalValue p word)

/-- Read a word as a positional: for the active one, else the first pending one. -/
def feedPositional (word : String) : Except Interruption Fed :=
  match s.positional with
  | some p => (s.feedValue g p word).map .next
  | none =>
    match s.pending with
    -- A word too many is passed over.
    | [] => .ok (.next s)
    | slot :: rest =>
      match slot.arg.subcommands? with
      | some subs =>
        match subs.lookup word with
        | some child => .ok (.delegate child)
        | none => .error (.unknownSubcommand word)
      | none => (({ s with pending := rest }).feedValue g { slot } word).map .next

/-! ### One word, many words -/

def feed (word : String) : Except Interruption Fed :=
  match s.reading g word with
  | .remainderValue p =>
    let (p, values) := p.consume word s.values
    .ok (.next { s with positional := some p, values })
  | .remainderFlagValue p =>
    let (p, values) := p.consume word s.values
    .ok (.next { s with flag := some p, values })
  | .remainderFlagEnd => .ok (.next { s with flag := none })
  | .endOfOptions =>
    match s.checkFlag with
    | .error e => .error e
    | .ok () => .ok (.next { s with flag := none, flagsOff := true })
  | .flag =>
    match s.checkFlag with
    | .error e => .error e
    | .ok () => (({ s with flag := none }).feedFlag g word).map .next
  | .flagValue p =>
    let (p, values) := p.consume word s.values
    .ok (.next { s with flag := if p.isFull then none else some p, values })
  | .positional => s.feedPositional g word

/-- Read words one after the other, up to one that names a subcommand. -/
def feedAll (g : Grammar) : Replay → List String → Except Interruption Fed
  | s, [] => .ok (.next s)
  | s, w :: ws =>
    match s.feed g w with
    | .ok (.next s) => feedAll g s ws
    | other => other

/-- The positional that takes the next word: the active one, else the first pending one. -/
def nextPositional : Option Progress :=
  match s.positional with
  | some p => some p
  | none => s.pending.head?.map fun slot => { slot }

end Replay

end TabCompletion
