import TabCompletion.Proofs.Grammar.MapSources
import TabCompletion.Proofs.Resolve.Descent

/-!
# Words are read without a look at choices

A grammar and the same grammar with other choice sources are read in lockstep: each word is read as the
same, and leaves the same state, but for the sources that the arguments in it have
(`feed_mapSources`). So words lead to the same place in both (`descend_mapSources`), where the same is
completed (`target_mapSources`).
-/

namespace TabCompletion

variable (f : ChoiceSource → ChoiceSource)

def Progress.mapSources (p : Progress) : Progress := { p with slot := p.slot.mapSources f }

def Reading.mapSources : Reading → Reading
  | remainderValue p => .remainderValue (p.mapSources f)
  | remainderFlagValue p => .remainderFlagValue (p.mapSources f)
  | flagValue p => .flagValue (p.mapSources f)
  | r => r

/-- The state with other sources in the arguments that it holds. -/
def Replay.mapSources (s : Replay) : Replay :=
  { s with
    pending := s.pending.map (·.mapSources f)
    positional := s.positional.map (·.mapSources f)
    flag := s.flag.map (·.mapSources f)
    claimed := s.claimed.map fun c => (c.1, c.2.mapSources f) }

def Fed.mapSources : Fed → Fed
  | next s => .next (s.mapSources f)
  | delegate child => .delegate (child.mapSources f)

def Level.mapSources (l : Level) : Level := { l with grammar := l.grammar.mapSources f }

def Descent.mapSources (down : Descent) : Descent :=
  { levels := down.levels.map (·.mapSources f)
    grammar := down.grammar.mapSources f
    state := down.state.mapSources f }

variable {g : Grammar} {s : Replay} {p : Progress} {slot : Slot} {word : String}

@[simp] theorem Progress.mapSources_arg : (p.mapSources f).arg = p.arg.mapSources f := rfl

@[simp] theorem Progress.mapSources_isRemainder : (p.mapSources f).isRemainder = p.isRemainder := by
  simp [isRemainder]

@[simp] theorem Progress.mapSources_isFull : (p.mapSources f).isFull = p.isFull := by
  rw [isFull, mapSources_arg, ArgDef.mapSources_arity]
  rfl

@[simp] theorem Progress.mapSources_isUnfinished :
    (p.mapSources f).isUnfinished = p.isUnfinished := by
  rw [isUnfinished, mapSources_arg, ArgDef.mapSources_arity]
  rfl

theorem Progress.mapSources_consume (values : ArgTokens) :
    (p.mapSources f).consume word values =
      ((p.consume word values).1.mapSources f, (p.consume word values).2) := by
  rw [consume, mapSources_arg, ArgDef.mapSources_dest]
  rfl

@[simp] theorem Progress.mapSources_unfinished : (p.mapSources f).unfinished = p.unfinished := by
  rw [unfinished, mapSources_arg, ArgDef.mapSources_displayName, ArgDef.mapSources_arity]
  rfl

namespace Replay

@[simp] theorem mapSources_values : (s.mapSources f).values = s.values := rfl

theorem start_mapSources : start (g.mapSources f) = (start g).mapSources f := by
  rw [start, Grammar.positionals_mapSources]
  rfl

theorem checkFlag_mapSources : (s.mapSources f).checkFlag = s.checkFlag := by
  unfold checkFlag mapSources
  cases s.flag <;> simp

theorem reading_mapSources :
    (s.mapSources f).reading (g.mapSources f) word = (s.reading g word).mapSources f := by
  have hfilter (o : Option Progress) : (o.map (·.mapSources f)).filter (·.isRemainder) =
      (o.filter (·.isRemainder)).map (·.mapSources f) := by
    cases o with
    | none => rfl
    | some p => cases h : p.isRemainder <;> simp [Option.filter, h]
  unfold reading
  simp only [mapSources, hfilter, Grammar.looksLikeFlag_mapSources]
  cases s.positional.filter (·.isRemainder) with
  | some p => rfl
  | none =>
      cases s.flag.filter (·.isRemainder) with
      | some p =>
          simp only [Option.map_none, Option.map_some]
          split <;> rfl
      | none =>
          simp only [Option.map_none]
          split
          · rfl
          split
          · rfl
          cases s.flag <;> rfl

/-! ## What a word does -/

theorem withGroupTaken_mapSources (group : Nat) :
    (s.mapSources f).withGroupTaken (g.mapSources f) group (slot.mapSources f) =
      (s.withGroupTaken g group slot).mapSources f := by
  simp [withGroupTaken, mapSources, Grammar.groupMembers_mapSources, List.filter_map,
    List.flatMap_map, Function.comp_def]

theorem claimGroup_mapSources :
    (s.mapSources f).claimGroup (g.mapSources f) (slot.mapSources f) =
      (s.claimGroup g slot).map (·.mapSources f) := by
  have hclaimed (group : Nat) : (s.mapSources f).claimed.lookup group =
      (s.claimed.lookup group).map (·.mapSources f) := lookup_map _ _ _
  unfold claimGroup
  rw [Slot.mapSources_arg, ArgDef.mapSources_group]
  cases slot.arg.group with
  | none => rfl
  | some group =>
      simp only [hclaimed]
      cases howner : s.claimed.lookup group with
      | none => simp only [Option.map_none, Except.map, withGroupTaken_mapSources]
      | some owner =>
          simp only [Option.map_some, Slot.mapSources_index, Slot.mapSources_arg,
            ArgDef.mapSources_displayName]
          split <;> rfl

theorem withFlag_mapSources :
    (s.mapSources f).withFlag (slot.mapSources f) = (s.withFlag slot).mapSources f := by
  unfold withFlag valuesAtFlag
  simp only [Slot.mapSources_arg, ArgDef.mapSources_isReusable, ArgDef.mapSources_dest,
    ArgDef.mapSources_aliases, ArgDef.mapSources_arity, ArgDef.mapSources_isRemainder]
  split <;> rfl

theorem feedFlag_mapSources :
    (s.mapSources f).feedFlag (g.mapSources f) word = (s.feedFlag g word).map (·.mapSources f) := by
  unfold feedFlag
  rw [Grammar.matchFlag?_mapSources]
  cases g.matchFlag? word with
  | none => rfl
  | some slot =>
      simp only [Option.map_some, claimGroup_mapSources]
      cases s.claimGroup g slot with
      | error e => rfl
      | ok s₁ => simp [Except.map, withFlag_mapSources]

theorem withPositionalValue_mapSources :
    (s.mapSources f).withPositionalValue (p.mapSources f) word =
      (s.withPositionalValue p word).mapSources f := by
  have hhead : (s.mapSources f).pending.head?.any (·.arg.isRemainder) =
      s.pending.head?.any (·.arg.isRemainder) := by
    rw [mapSources]
    cases s.pending <;> simp
  unfold withPositionalValue
  simp only [mapSources_values, Progress.mapSources_consume, Progress.mapSources_isRemainder,
    Progress.mapSources_isFull, hhead]
  split
  · rfl
  split <;> rfl

theorem feedValue_mapSources :
    (s.mapSources f).feedValue (g.mapSources f) (p.mapSources f) word =
      (s.feedValue g p word).map (·.mapSources f) := by
  have hclaim : (s.mapSources f).claimGroup (g.mapSources f) (p.mapSources f).slot =
      (s.claimGroup g p.slot).map (·.mapSources f) := claimGroup_mapSources f
  unfold feedValue
  rw [hclaim]
  cases s.claimGroup g p.slot with
  | error e => rfl
  | ok s₁ => simp [Except.map, withPositionalValue_mapSources]

theorem next_mapSources (r : Except Interruption Replay) :
    (r.map (·.mapSources f)).map Fed.next = (r.map Fed.next).map (·.mapSources f) := by
  cases r <;> rfl

theorem feedPositional_mapSources :
    (s.mapSources f).feedPositional (g.mapSources f) word =
      (s.feedPositional g word).map (·.mapSources f) := by
  unfold feedPositional
  cases hp : s.positional with
  | some p =>
      have hpositional : (s.mapSources f).positional = some (p.mapSources f) := by
        simp [mapSources, hp]
      simp only [hpositional, feedValue_mapSources, next_mapSources]
  | none =>
      have hpositional : (s.mapSources f).positional = none := by simp [mapSources, hp]
      cases hpending : s.pending with
      | nil =>
          have : (s.mapSources f).pending = [] := by simp [mapSources, hpending]
          simp only [hpositional, this]
          rfl
      | cons slot rest =>
          have : (s.mapSources f).pending = slot.mapSources f :: rest.map (·.mapSources f) := by
            simp [mapSources, hpending]
          simp only [hpositional, this, Slot.mapSources_arg, ArgDef.mapSources_subcommands?]
          cases slot.arg.subcommands? with
          | some subs =>
              simp only [Option.map_some, lookup_map]
              cases subs.lookup word <;> rfl
          | none =>
              rw [← next_mapSources, ← feedValue_mapSources]
              rfl

/-- **A word is read in lockstep**, whatever the choices are. -/
theorem feed_mapSources :
    (s.mapSources f).feed (g.mapSources f) word = (s.feed g word).map (·.mapSources f) := by
  unfold feed
  rw [reading_mapSources]
  -- Both states read the word as the same; what they do with it is compared reading by reading.
  cases s.reading g word with
  | remainderValue p | remainderFlagValue p =>
      simp only [Reading.mapSources, Progress.mapSources_consume]
      rfl
  | remainderFlagEnd => rfl
  | endOfOptions =>
      simp only [Reading.mapSources, checkFlag_mapSources]
      cases s.checkFlag <;> rfl
  | flag =>
      simp only [Reading.mapSources, checkFlag_mapSources]
      cases s.checkFlag with
      | error e => rfl
      | ok _ =>
          simp only [← next_mapSources, ← feedFlag_mapSources]
          rfl
  | flagValue p =>
      simp only [Reading.mapSources, mapSources_values, Progress.mapSources_consume,
        Progress.mapSources_isFull]
      split <;> simp only [Except.map, Fed.mapSources, *] <;> rfl
  | positional => exact feedPositional_mapSources f

/-! ## Where words lead -/

theorem target_mapSources (text : String) :
    ((s.mapSources f).target (g.mapSources f) text).argument? =
      (s.target g text).argument?.map (·.mapSources f) := by
  have hoff : (s.mapSources f).flagsOff = s.flagsOff := rfl
  have hflag : (s.mapSources f).flag = s.flag.map (·.mapSources f) := rfl
  have hnext : (s.mapSources f).nextPositional = s.nextPositional.map (·.mapSources f) := by
    unfold nextPositional mapSources
    cases s.positional with
    | some p => rfl
    | none => cases s.pending <;> rfl
  unfold target
  simp only [Grammar.looksLikeFlag_mapSources, hoff, hflag, hnext]
  split
  · rfl
  cases s.flag with
  | some p => rfl
  | none =>
      simp only [Option.map_none]
      cases s.nextPositional <;> rfl

end Replay

namespace Grammar

theorem inherit_mapSources (parents : ArgTokens) (levels : List Level) :
    inherit parents (levels.map (·.mapSources f)) = inherit parents levels := by
  have hpassed (g : Grammar) (parents values : ArgTokens) (name : String) :
      (g.mapSources f).passedDown parents values name = g.passedDown parents values name := by
    unfold passedDown
    rw [dispatch?_mapSources]
    cases g.dispatch? with
    | none => rfl
    | some slot => simp
  induction levels generalizing parents with
  | nil => rfl
  | cons l levels ih =>
      rw [List.map_cons, inherit, List.foldl_cons]
      exact (ih _).trans (congrArg (inherit · levels) (hpassed ..))

/-- **Words lead to the same place**, whatever the choices are. -/
theorem descend_mapSources (words : List String) :
    (g.mapSources f).descend (s.mapSources f) words =
      (g.descend s words).map (·.mapSources f) := by
  induction words generalizing g s with
  | nil => rfl
  | cons word words ih =>
      rw [descend, descend, Replay.feed_mapSources]
      cases s.feed g word with
      | error e => rfl
      | ok fed =>
          cases fed with
          | next s₁ => exact ih
          | delegate child =>
              -- The child starts anew, in both grammars at its own first positional.
              simp only [Except.map, Fed.mapSources]
              rw [Replay.start_mapSources, ih]
              cases child.descend (.start child) words <;> rfl

end Grammar

end TabCompletion
