import TabCompletion.Schema.Basic

/-!
# The commands of a shell that is given no schema

They show what a schema can say. Two sources are named: `env_vars`, the names of the environment
variables, and `paths`, the files of the working directory.
-/

namespace TabCompletion.Schema.Demo

def described (value description : String) : Choice :=
  { value := .text value, description := some description }

def numbers (ns : List Int) : List Choice := ns.map fun n => { value := .int n }

def create : Command where
  name := "create"
  description := some "Create an album"
  addHelp := true
  args :=
    [ { flags := some ["-t", "--title"]
        help := some "album title" },
      { flags := some ["-g", "--genre"]
        help := some "musical genre"
        descriptiveHeader := some "Style"
        choices := some
          [ described "jazz" "Swing and bebop",
            described "rock" "Guitars, mostly",
            described "classical" "Orchestral works",
            described "ambient" "Background textures" ] },
      { flags := some ["-y", "--year"]
        help := some "release year"
        choices := some (numbers [1967, 1969, 1971, 1977, 1984, 1991]) },
      { name := some "tracks"
        nargs := some (.symbol "+")
        help := some "track titles" } ]

def play : Command where
  name := "play"
  description := some "Play from the library"
  addHelp := true
  args :=
    [ { flags := some ["-v", "--volume"]
        help := some "playback volume"
        choices := some (numbers [1, 2, 3, 4, 5, 6, 7, 8, 9, 10, 11]) },
      { flags := some ["--shuffle"]
        action := some "store_true"
        help := some "shuffle tracks"
        group := some "order" },
      { flags := some ["--repeat"]
        action := some "count"
        help := some "repeat (twice for forever)"
        group := some "order" },
      { name := some "files"
        nargs := some (.symbol "*")
        provider := some "paths"
        help := some "audio files" } ]
  groups := [("order", false)]

def music : Command where
  name := "music"
  description := some "Manage a music library"
  addHelp := true
  subcommandDest := some "action"
  subcommandHelp := some "what to do"
  subcommands := [create, play]

def env : Command where
  name := "env"
  description := some "Show environment variables"
  args :=
    [ { name := some "names"
        nargs := some (.symbol "*")
        provider := some "env_vars"
        metavar := some "NAME"
        help := some "variables to show" } ]

def copy : Command where
  name := "copy"
  description := some "Copy files"
  addHelp := true
  args :=
    [ { flags := some ["-r", "--recursive"]
        action := some "store_true"
        help := some "copy directories recursively" },
      { flags := some ["--json"]
        action := some "store_true"
        group := some "report"
        help := some "report as JSON" },
      { flags := some ["--quiet"]
        action := some "store_true"
        group := some "report"
        help := some "report nothing" },
      { name := some "source"
        provider := some "paths"
        help := some "file to copy" },
      { name := some "target"
        provider := some "paths"
        help := some "where to copy it" } ]

def run : Command where
  name := "run"
  description := some "Run a program with arguments"
  args :=
    [ { flags := some ["--env"]
        nargs := some (.fixed 2)
        metavar := some "KEY"
        help := some "set a variable for the program" },
      { name := some "program"
        provider := some "paths"
        help := some "program to run" },
      { name := some "args"
        nargs := some (.symbol "...")
        help := some "arguments passed through" } ]

def commands : List Command := [music, env, copy, run]

end TabCompletion.Schema.Demo
