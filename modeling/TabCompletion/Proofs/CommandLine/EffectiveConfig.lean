import TabCompletion.CommandLine.Surroundings

/-!
# The configuration in effect

The settings in a file apply as a whole if they are valid, and the defaults, which are
(`Config.default_valid`), apply as a whole otherwise. Then the arguments set two of them, the colour of
the screen and the log level (`Overridden`). Validity does not depend on these (`Config.Valid.congr`), so
whatever a file holds, the configuration in effect is valid.

Main statement: `effectiveConfig_valid`.
-/

namespace TabCompletion

/-! ## Valid settings -/

theorem Path.join_ne_empty {path : String} (h : path ≠ "") (base : String) :
    Path.join base path ≠ "" := by
  unfold join
  split
  · exact h
  split
  all_goals simp [h]

namespace Config

variable {c d : Config}

/-- No size is zero, and a history that is kept has a file. -/
structure Valid (c : Config) : Prop where
  maxItems : c.completion.maxItems ≠ 0
  maxSize : c.history.maxSize ≠ 0
  filePath : c.history.persist = true → c.history.filePath ≠ ""

/-- **The settings that are not refused are the valid ones.** -/
theorem validate_eq_ok_iff : c.validate = .ok () ↔ c.Valid := by
  constructor
  · intro h
    unfold validate at h
    split at h
    · contradiction
    next hitems =>
    split at h
    · contradiction
    next hsize =>
    split at h
    · contradiction
    next hfile => exact ⟨hitems, hsize, by simpa using hfile⟩
  · intro h
    rw [validate, if_neg h.maxItems, if_neg h.maxSize, if_neg (by simpa using h.filePath)]

/-- Validity is a matter of the settings of completion and of the history. -/
theorem Valid.congr (h : c.Valid) (hcompletion : d.completion = c.completion)
    (hhistory : d.history = c.history) : d.Valid :=
  ⟨hcompletion ▸ h.maxItems, hhistory ▸ h.maxSize, hhistory ▸ h.filePath⟩

/-- **The defaults are valid**, whatever the home directory. -/
theorem default_valid (home : String) : (default home).Valid where
  maxItems := (by decide : 50 ≠ 0)
  maxSize := (by decide : 1000 ≠ 0)
  filePath _ := Path.join_ne_empty (by decide) home

end Config

/-! ## What the arguments set -/

/-- The amount of detail that a level logs. -/
def LogLevel.detail : LogLevel → Nat
  | error => 0
  | warn => 1
  | info => 2
  | debug => 3
  | trace => 4

namespace CommandLine.Invocation

/-- Arguments ask for a log level. -/
inductive AsksFor (i : Invocation) : LogLevel → Prop where
  | veryVerbose (h : i.veryVerbose = true) : AsksFor i .trace
  | verbose (h : i.verbose = true) : AsksFor i .debug
  | quiet (h : i.quiet = true) : AsksFor i .error

/-- The log level that arguments put in place of another: of those that they ask for, the one of the
greatest detail. They leave the other if they ask for none. -/
inductive SetsLevel (i : Invocation) (level : LogLevel) : LogLevel → Prop where
  | kept (h : ∀ asked, ¬i.AsksFor asked) : SetsLevel i level level
  | strongest {strongest : LogLevel} (h : i.AsksFor strongest)
      (hmost : ∀ asked, i.AsksFor asked → asked.detail ≤ strongest.detail) :
      SetsLevel i level strongest

end CommandLine.Invocation

namespace Surroundings

open CommandLine (Invocation)

variable {i : Invocation}

theorem setsLevel_levelFor (i : Invocation) (level : LogLevel) :
    i.SetsLevel level (levelFor i level) := by
  -- An option that is asked about later asks for less detail than one that is given.
  unfold levelFor
  split
  · next hvv =>
      refine .strongest (.veryVerbose hvv) ?_
      rintro asked (_ | _ | _) <;> decide
  split
  · next hv =>
      refine .strongest (.verbose hv) ?_
      rintro asked (hvv | _ | _)
      · contradiction
      all_goals decide
  split
  · next hq =>
      refine .strongest (.quiet hq) ?_
      rintro asked (hvv | hv | _)
      · contradiction
      · contradiction
      · decide
  · refine .kept ?_
    rintro asked (hvv | hv | hq) <;> contradiction

/-- A configuration is another one but for what the arguments set: colour is switched off where they
say so, and the log level is the one that they ask for. -/
structure Overridden (i : Invocation) (base c : Config) : Prop where
  others : { c with display.color := base.display.color, logging.level := base.logging.level } = base
  color : c.display.color = if i.noColor then false else base.display.color
  level : i.SetsLevel base.logging.level c.logging.level

theorem overridden_override (i : Invocation) (base : Config) : Overridden i base (override i base) where
  others := rfl
  color := by cases h : i.noColor <;> simp [override, h]
  level := setsLevel_levelFor i base.logging.level

/-- What the arguments set has no bearing on validity. -/
theorem Overridden.valid {base c : Config} (h : Overridden i base c) (hbase : base.Valid) : c.Valid := by
  refine hbase.congr ?_ ?_
  · rw [← h.others]
  · rw [← h.others]

/-! ## Loading and overriding -/

variable {s : Surroundings} {loaded : Config}

theorem effectiveConfig_of_ok (hloaded : s.configAt (s.configPath i) = .ok loaded)
    (hvalid : loaded.validate = .ok ()) : s.effectiveConfig i = .ok (override i loaded, none) := by
  simp only [effectiveConfig, hloaded, hvalid]

theorem effectiveConfig_of_fault {fault : ConfigError}
    (hloaded : s.configAt (s.configPath i) = .ok loaded) (hfault : loaded.validate = .error fault) :
    s.effectiveConfig i = .ok (override i (Config.default s.home), some fault) := by
  simp only [effectiveConfig, hloaded, hfault]

/-- Only what cannot be loaded leaves the shell without a configuration. -/
theorem effectiveConfig_eq_error_iff {e : ShellError} :
    s.effectiveConfig i = .error e ↔ s.configAt (s.configPath i) = .error e := by
  cases hloaded : s.configAt (s.configPath i) with
  | error e' => simp [effectiveConfig, hloaded]
  | ok loaded =>
      cases hvalid : loaded.validate with
      | ok u => simp [effectiveConfig_of_ok hloaded hvalid]
      | error fault => simp [effectiveConfig_of_fault hloaded hvalid]

/-- **The configuration in effect is valid.** It is wanting just if none can be loaded, for the same
reason. Otherwise it is valid: what was loaded if that is valid, or else the defaults, in each setting
but the colour of the screen, which is switched off just if the arguments say so, and the log level,
which is the strongest that the arguments ask for. If the defaults are used, it is told what is wrong
with what was loaded. -/
theorem effectiveConfig_valid (s : Surroundings) (i : Invocation) :
    (∀ e, s.effectiveConfig i = .error e ↔ s.configAt (s.configPath i) = .error e) ∧
    ∀ loaded, s.configAt (s.configPath i) = .ok loaded →
      ∃ c fault, s.effectiveConfig i = .ok (c, fault) ∧ c.validate = .ok () ∧
        (∀ e, fault = some e ↔ loaded.validate = .error e) ∧
        (loaded.validate = .ok () → Overridden i loaded c) ∧
        (loaded.validate ≠ .ok () → Overridden i (Config.default s.home) c) := by
  refine ⟨fun e => effectiveConfig_eq_error_iff, ?_⟩
  intro loaded hloaded
  cases hvalid : loaded.validate with
  | ok u =>
      have hover := overridden_override i loaded
      have hloadedValid := Config.validate_eq_ok_iff.mp hvalid
      refine ⟨_, _, effectiveConfig_of_ok hloaded hvalid,
        Config.validate_eq_ok_iff.mpr (hover.valid hloadedValid), ?_, fun _ => hover, ?_⟩
      · simp
      · intro hne
        exact absurd rfl hne
  | error fault =>
      have hover := overridden_override i (Config.default s.home)
      have hdefault := Config.default_valid s.home
      refine ⟨_, _, effectiveConfig_of_fault hloaded hvalid,
        Config.validate_eq_ok_iff.mpr (hover.valid hdefault), ?_, ?_, fun _ => hover⟩
      · simp
      · intro h
        contradiction

/-- A directory, a file that gives the history no size, and one that is valid. -/
def twoFiles : Surroundings where
  files :=
    { nodes :=
        [ (["saved"], .directory),
          (["empty.toml"], .file "[history]\nmax_size = 0\n\n[logging]\nlevel = \"info\"\n"),
          (["brief.toml"], .file "[history]\nmax_size = 9\n\n[logging]\nlevel = \"info\"\n") ] }
  home := "/home/ada"

def withHistory (size : Nat) : Config :=
  { Config.default "/home/ada" with history.maxSize := size, logging.level := .info }

theorem eq_ok_of_toOption {ε α : Type} {x : Except ε α} {a : α} (h : x.toOption = some a) :
    x = .ok a := by
  cases x with
  | error e => contradiction
  | ok b => exact congrArg Except.ok (Option.some.inj h)

theorem twoFiles_in_effect :
    let saved : Invocation := { configFile := some "saved" }
    let empty : Invocation := { configFile := some "empty.toml", quiet := true }
    let brief : Invocation :=
      { configFile := some "brief.toml", noColor := true, quiet := true, veryVerbose := true }
    let fault := ConfigError.invalidValue "history.max_size" "0"
    Invocation.ofArgs ["--vv", "-qcbrief.toml", "--no-color"] = .ok brief ∧
      (twoFiles.configAt (twoFiles.configPath saved) = .error (.file .isDirectory) ∧
        twoFiles.effectiveConfig saved = .error (.file .isDirectory)) ∧
      (twoFiles.configAt (twoFiles.configPath empty) = .ok (withHistory 0) ∧
        (withHistory 0).validate = .error fault ∧
        ∃ c, twoFiles.effectiveConfig empty = .ok (c, some fault) ∧ c.validate = .ok () ∧
          Overridden empty (Config.default "/home/ada") c) ∧
      (twoFiles.configAt (twoFiles.configPath brief) = .ok (withHistory 9) ∧
        (withHistory 9).validate = .ok () ∧
        ∃ c fault, twoFiles.effectiveConfig brief = .ok (c, fault) ∧ c.validate = .ok () ∧
          Overridden brief (withHistory 9) c) := by
  intro saved empty brief fault
  have hsaved : twoFiles.configAt (twoFiles.configPath saved) = .error (.file .isDirectory) := by
    have hread : twoFiles.files.read "saved" = .error .isDirectory := by rfl
    show twoFiles.configAt "saved" = _
    rw [configAt, if_pos (by decide +kernel), hread]
  have hempty : twoFiles.configAt (twoFiles.configPath empty) = .ok (withHistory 0) :=
    eq_ok_of_toOption (by decide +kernel)
  have hbrief : twoFiles.configAt (twoFiles.configPath brief) = .ok (withHistory 9) :=
    eq_ok_of_toOption (by decide +kernel)
  refine ⟨rfl, ⟨hsaved, ((effectiveConfig_valid twoFiles saved).1 _).mpr hsaved⟩, ⟨hempty, rfl, ?_⟩,
    hbrief, rfl, ?_⟩
  · obtain ⟨c, told, heffect, hvalid, htold, -, hdefault⟩ :=
      (effectiveConfig_valid twoFiles empty).2 _ hempty
    obtain rfl : told = some fault := (htold fault).mpr rfl
    exact ⟨c, heffect, hvalid, hdefault nofun⟩
  · obtain ⟨c, told, heffect, hvalid, -, hloaded, -⟩ :=
      (effectiveConfig_valid twoFiles brief).2 _ hbrief
    exact ⟨c, told, heffect, hvalid, hloaded rfl⟩

end Surroundings

end TabCompletion
