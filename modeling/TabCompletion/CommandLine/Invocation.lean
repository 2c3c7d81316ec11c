import TabCompletion.CommandLine.Options

/-!
# What a command line asks for

`Invocation.ofArgs` reads the arguments of the program: options of its own, then a subcommand with
options and words of its own.
-/

namespace TabCompletion.CommandLine

/-- What the program is to do instead of starting the shell. -/
inductive Task where
  | version
  /-- Write a completion script for a shell. -/
  | completion (shell : String)
  /-- Show or validate the configuration. -/
  | config (display validate : Bool)
  /-- List the candidates at the end of a line. -/
  | complete (line : String)
  | help (words : List String)
  deriving DecidableEq, Repr

structure Invocation where
  schema : Option String := none
  configFile : Option String := none
  noColor : Bool := false
  quiet : Bool := false
  verbose : Bool := false
  veryVerbose : Bool := false
  task : Option Task := none
  deriving DecidableEq, Repr

/-! ### The forms of the commands -/

def helpOption : OptionForm := { name := .help, short := some 'h', long := "help" }

def programForm : CommandForm where
  options :=
    [ { name := .schema, short := some 's', long := "schema", takesValue := true },
      { name := .config, short := some 'c', long := "config", takesValue := true },
      { name := .noColor, long := "no-color" },
      { name := .quiet, short := some 'q', long := "quiet" },
      { name := .verbose, short := some 'v', long := "verbose" },
      { name := .veryVerbose, long := "vv" },
      { name := .version, short := some 'V', long := "version" },
      helpOption ]
  maxWords := some 0

/-- A subcommand: its form, and the task that its options and words make. -/
structure Subcommand where
  form : CommandForm
  task : Scan → Except UsageFault Task

def needsWord (task : String → Task) (s : Scan) : Except UsageFault Task :=
  match s.words with
  | w :: _ => .ok (task w)
  | [] => .error .missingRequiredArgument

def subcommands : List (String × Subcommand) :=
  [ ("version", ⟨⟨[helpOption], some 0⟩, fun _ => .ok .version⟩),
    ("completion", ⟨⟨[helpOption], some 1⟩, needsWord .completion⟩),
    ("config",
      ⟨⟨[ { name := .showConfig, long := "show" },
          { name := .validateConfig, long := "validate" },
          helpOption ], some 0⟩,
        fun s => .ok (.config (s.has .showConfig) (s.has .validateConfig))⟩),
    ("complete", ⟨⟨[helpOption], some 1⟩, needsWord .complete⟩),
    ("help", ⟨⟨[helpOption], none⟩, fun s => .ok (.help s.words)⟩) ]

/-! ### Reading -/

def Subcommand.read (c : Subcommand) (args : List String) : Except UsageFault Task :=
  match Scan.takeAll c.form {} args with
  | .error e => .error e
  | .ok s => c.task s

/-- The fault of a word that is no subcommand. After `--`, where subcommands are not looked for, the
name of one is merely out of place. -/
def strayWord (s : Scan) (w : String) : UsageFault :=
  if s.onlyWords && (subcommands.lookup w).isSome then .unknownArgument else .invalidSubcommand

def subcommandAt (s : Scan) (arg : String) : Option Subcommand :=
  if s.onlyWords || s.isWaiting then none else subcommands.lookup arg

/-- What the program's own options, once settled, ask for. -/
def Invocation.ofScan (task : Option Task) (s : Scan) : Invocation where
  schema := s.value? .schema
  configFile := s.value? .config
  noColor := s.has .noColor
  quiet := s.has .quiet
  verbose := s.has .verbose
  veryVerbose := s.has .veryVerbose
  task := task

def Invocation.readFrom (s : Scan) : List String → Except UsageFault Invocation
  | [] => s.settlePending.map (ofScan none)
  | arg :: args =>
    match subcommandAt s arg with
    | some c =>
      -- A fault of the subcommand comes before one of the option that is still pending.
      match c.read args with
      | .error e => .error e
      | .ok task => s.settlePending.map (ofScan (some task))
    | none =>
      match s.take programForm (strayWord s arg) arg with
      | .error e => .error e
      | .ok s => readFrom s args

/-- Read the arguments of the program, which follow its name. -/
def Invocation.ofArgs (args : List String) : Except UsageFault Invocation :=
  readFrom {} args

end TabCompletion.CommandLine
