/-!
# Reading the words of a command line

A command has options, some of which take a value, and takes words up to a number. `Scan` is what
has been read so far. An option that waits for its value is settled only when the next option comes
or the line ends; what is wrong with it is reported then, after any fault of the words in between.
-/

namespace TabCompletion.CommandLine

/-- Why a command line is not carried out. -/
inductive UsageFault where
  | unknownArgument
  | invalidSubcommand
  /-- A value that is missing or empty. -/
  | invalidValue
  /-- An option that is given twice. -/
  | argumentConflict
  | missingRequiredArgument
  /-- A value for an option that takes none. -/
  | tooManyValues
  /-- Help is asked for. -/
  | displayHelp
  /-- The version is asked for. -/
  | displayVersion
  deriving DecidableEq, Repr

/-- The text of a fault. Help and the version are asked for, and are no faults. -/
def UsageFault.message : UsageFault → String
  | unknownArgument => "unexpected argument"
  | invalidSubcommand => "unrecognized subcommand"
  | invalidValue => "a value is required and may not be empty"
  | argumentConflict => "an argument cannot be used multiple times"
  | missingRequiredArgument => "a required argument was not provided"
  | tooManyValues => "unexpected value for an argument"
  | displayHelp => ""
  | displayVersion => ""

inductive OptionName where
  | schema
  | config
  | noColor
  | quiet
  | verbose
  | veryVerbose
  | help
  | version
  | showConfig
  | validateConfig
  deriving DecidableEq, Repr

/-- How an option is written, and whether a value follows. -/
structure OptionForm where
  name : OptionName
  short : Option Char := none
  long : String
  takesValue : Bool := false
  deriving DecidableEq, Repr

structure CommandForm where
  options : List OptionForm
  maxWords : Option Nat
  deriving DecidableEq, Repr

namespace CommandForm

variable (f : CommandForm)

def long? (name : String) : Option OptionForm := f.options.find? (·.long == name)

def short? (c : Char) : Option OptionForm := f.options.find? (·.short == some c)

def takesWord (count : Nat) : Bool :=
  match f.maxWords with
  | some max => count < max
  | none => true

end CommandForm

/-- What has been read of a command's line. -/
structure Scan where
  /-- The options settled so far, with their values. -/
  settled : List (OptionName × Option String) := []
  words : List String := []
  /-- The option that was given last and is not settled, with its value once it came. -/
  pending : Option (OptionName × Option String) := none
  /-- Whether only words follow. -/
  onlyWords : Bool := false
  deriving DecidableEq, Repr

namespace Scan

variable (s : Scan)

def has (o : OptionName) : Bool := s.settled.any (·.1 == o)

def value? (o : OptionName) : Option String := (s.settled.lookup o).join

def isWaiting : Bool := s.pending.any (·.2.isNone)

/-- Settle an option with its value, which may be neither its second nor empty. -/
def settle (o : OptionName) (value : Option String) : Except UsageFault Scan :=
  if s.has o then .error .argumentConflict
  else if value == some "" then .error .invalidValue
  else .ok { s with settled := s.settled ++ [(o, value)] }

def settlePending : Except UsageFault Scan :=
  match s.pending with
  | none => .ok s
  | some (_, none) => .error .invalidValue
  | some (o, some v) => { s with pending := none }.settle o (some v)

/-- Take an option together with what is known of its value. -/
def option (f : OptionForm) (value : Option String) : Except UsageFault Scan :=
  match s.settlePending with
  | .error e => .error e
  | .ok s =>
    match f.name with
    -- These end the reading, whatever follows.
    | .help => .error .displayHelp
    | .version => .error .displayVersion
    | _ =>
      if f.takesValue && value.isNone then .ok { s with pending := some (f.name, none) }
      else s.settle f.name value

/-- Take an option in its long spelling, with the value after an equals sign. -/
def long (form : CommandForm) (name : String) (value : Option String) : Except UsageFault Scan :=
  match form.long? name with
  | none => .error .unknownArgument
  | some f => if !f.takesValue && value.isSome then .error .tooManyValues else s.option f value

/-- The value that follows an option's letter in the same word, without an equals sign. -/
def attached : List Char → Option String
  | [] => none
  | '=' :: cs => some (String.ofList cs)
  | cs => some (String.ofList cs)

/-- Take the letters of a word, each an option, up to one that takes a value. -/
def letters (form : CommandForm) (s : Scan) : List Char → Except UsageFault Scan
  | [] => .ok s
  | c :: cs =>
    match form.short? c with
    | none => .error .unknownArgument
    | some f =>
      if f.takesValue then s.option f (attached cs)
      else
        match s.option f none with
        | .error e => .error e
        | .ok s => letters form s cs

/-- Take a word that is no option. `excess` is the fault of a word too many. -/
def word (form : CommandForm) (excess : UsageFault) (w : String) : Except UsageFault Scan :=
  if form.takesWord s.words.length then
    s.settlePending.map fun s => { s with words := s.words ++ [w] }
  else .error excess

/-- Take a word that may be a value, or else stands for itself. -/
def valueOrWord (form : CommandForm) (excess : UsageFault) (w : String) :
    Except UsageFault Scan :=
  match s.pending with
  | some (o, none) => .ok { s with pending := some (o, some w) }
  | _ => s.word form excess w

def take (form : CommandForm) (excess : UsageFault) (arg : String) : Except UsageFault Scan :=
  if s.onlyWords then s.word form excess arg
  else
    match arg.toList with
    | ['-', '-'] => .ok { s with onlyWords := true }
    | '-' :: '-' :: cs =>
      let name := String.ofList (cs.takeWhile (· != '='))
      match cs.dropWhile (· != '=') with
      | [] => s.long form name none
      | _ :: value => s.long form name (some (String.ofList value))
    | '-' :: c :: cs => s.letters form (c :: cs)
    | _ => s.valueOrWord form excess arg

/-- Take arguments one after the other and settle what is pending at the end. -/
def takeAll (form : CommandForm) (s : Scan) : List String → Except UsageFault Scan
  | [] => s.settlePending
  | arg :: args =>
    match s.take form .unknownArgument arg with
    | .error e => .error e
    | .ok s => takeAll form s args

end Scan

end TabCompletion.CommandLine
