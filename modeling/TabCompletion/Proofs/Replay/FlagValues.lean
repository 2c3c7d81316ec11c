import Mathlib.Data.List.DropRight
import TabCompletion.Proofs.Grammar.WellFormed
import TabCompletion.Proofs.Replay.Conservation
import TabCompletion.Proofs.Replay.Tally

/-!
# The values of a flag

A log of a run pairs each word with what it turned out to be. What is recorded under a destination are
the values of that destination after the last word that cleared it (`Recounts`). A destination that no
positional has belongs either to one flag, which clears it whenever it is named, or to flags that may
all be repeated, and then nothing ever clears it. So the first kind of flag keeps the values since it
was last named, and the second kind all of them (`store_or_append`).
-/

namespace TabCompletion

variable {g : Grammar} {dest word : String} {values : ArgTokens} {r : Role} {f m : Slot}
  {log : List (String × Role)} {p q : Role → Bool}

/-! ## Logs -/

/-- The words of a log whose roles are such. -/
def wordsWhere (p : Role → Bool) (log : List (String × Role)) : List String :=
  (log.filter fun e => p e.2).map (·.1)

/-- What of a log comes after the last word whose role is such, and all of it if there is none. -/
def afterLast (p : Role → Bool) (log : List (String × Role)) : List (String × Role) :=
  log.rtakeWhile fun e => !p e.2

@[simp] theorem wordsWhere_append (log more : List (String × Role)) :
    wordsWhere p (log ++ more) = wordsWhere p log ++ wordsWhere p more := by
  simp [wordsWhere]

@[simp] theorem wordsWhere_singleton :
    wordsWhere p [(word, r)] = if p r then [word] else [] := by
  cases h : p r <;> simp [wordsWhere, h]

theorem wordsWhere_congr (h : ∀ e ∈ log, p e.2 = q e.2) : wordsWhere p log = wordsWhere q log := by
  rw [wordsWhere, wordsWhere, List.filter_congr h]

theorem afterLast_append_singleton :
    afterLast p (log ++ [(word, r)]) = if p r then [] else afterLast p log ++ [(word, r)] := by
  cases h : p r <;> simp [afterLast, h]

theorem mem_of_mem_afterLast {e : String × Role} (h : e ∈ afterLast p log) : e ∈ log :=
  (List.rtakeWhile_suffix _ _).subset h

theorem afterLast_eq_self (h : ∀ e ∈ log, p e.2 = false) : afterLast p log = log := by
  apply List.rtakeWhile_eq_self_iff.mpr
  intro e he
  rw [h e he]
  rfl

theorem afterLast_congr (h : ∀ e ∈ log, p e.2 = q e.2) : afterLast p log = afterLast q log := by
  induction log using List.reverseRecOn with
  | nil => rfl
  | append_singleton log e ih =>
      have hlast := h e (List.mem_append_right _ (List.mem_singleton_self e))
      have hbefore := ih fun e' he' => h e' (List.mem_append_left _ he')
      rw [afterLast_append_singleton, afterLast_append_singleton, hlast, hbefore]

/-! ## What a role does to a destination -/

namespace Role

def names (f : Slot) : Role → Bool
  | flag (some m) => m.index == f.index
  | _ => false

def namesUnder (dest : String) : Role → Bool
  | flag (some m) => m.arg.dest == dest
  | _ => false

theorem namesUnder_iff :
    r.namesUnder dest = true ↔ ∃ m, r = .flag (some m) ∧ m.arg.dest = dest := by
  cases r with
  | flag slot? => cases slot? <;> simp [namesUnder]
  | value | endOfOptions | passedOver => simp [namesUnder]

/-- **A destination has an entry after a word** if it had one, or the word is a value there or names a
flag with this destination. -/
theorem isSome_record :
    ((r.record word values).get? dest).isSome =
      ((values.get? dest).isSome || r.isValueUnder dest || r.namesUnder dest) := by
  cases r with
  | value slot => grind [record, isValueUnder, namesUnder, ArgTokens.get?_push]
  | flag slot? =>
      cases slot? with
      | none => simp [record, isValueUnder, namesUnder]
      | some m =>
          grind [record, isValueUnder, namesUnder, ArgTokens.get?_touch, ArgTokens.get?_insert]
  | endOfOptions | passedOver => simp [record, isValueUnder, namesUnder]

end Role

namespace Replay

variable {spec : GrammarSpec} {s s' : Replay} {words : List String} {rs : List Role}

/-! ## What a log tells of the values -/

/-- The values are those that the log tells of. -/
structure Recounts (log : List (String × Role)) (s : Replay) : Prop where
  values : ∀ dest, (s.values.get? dest).getD [] =
    wordsWhere (·.isValueUnder dest) (afterLast (·.clears dest) log)
  entry : ∀ dest, (s.values.get? dest).isSome = true ↔
    ∃ e ∈ log, e.2.isValueUnder dest = true ∨ e.2.namesUnder dest = true

theorem start_recounts (g : Grammar) : Recounts [] (start g) where
  values _ := rfl
  entry dest := by simp [start, ArgTokens.empty, ArgTokens.get?]

theorem Recounts.step (h : Recounts log s) (hstep : Step g s word r s') :
    Recounts (log ++ [(word, r)]) s' where
  values dest := by
    rw [hstep.values_eq, Role.getD_record, h.values, afterLast_append_singleton]
    cases hclears : r.clears dest with
    | true => rfl
    | false => simp
  entry dest := by
    rw [hstep.values_eq, Role.isSome_record, Bool.or_assoc, Bool.or_eq_true, h.entry]
    simp only [List.mem_append, List.mem_singleton, or_and_right, exists_or, exists_eq_left,
      Bool.or_eq_true]

/-- **What every step keeps of the log and the state holds after every run.** -/
theorem feedAll_log_invariant {I : List (String × Role) → Replay → Prop}
    (hstep : ∀ {log s word r s'}, I log s → Step g s word r s' → I (log ++ [(word, r)]) s')
    (hs : I [] s) (h : feedAll g s words = .ok (.next s')) : I (words.zip (roles g s words)) s' := by
  have hrun : ([] ++ words).length = ([] ++ roles g s words).length ∧
      I (([] ++ words).zip ([] ++ roles g s words)) s' := by
    apply feedAll_roles_invariant (I := fun ws rs t => ws.length = rs.length ∧ I (ws.zip rs) t)
    · rintro ws rs t word r t' ⟨hlength, ht⟩ hnext
      refine ⟨by simp [hlength], ?_⟩
      rw [List.zip_append hlength]
      exact hstep ht hnext
    · exact ⟨rfl, hs⟩
    · exact h
  exact hrun.2

/-! ## Flags are named before they take values -/

/-- Only flags of the grammar are named, and a flag that takes values was named. -/
structure NamedFirst (g : Grammar) (log : List (String × Role)) (s : Replay) : Prop where
  coherent : Coherent g s
  mem : ∀ {w m}, (w, Role.flag (some m)) ∈ log → m ∈ g.slots ∧ m.arg.isFlag = true
  active : ∀ {p}, s.flag = some p → ∃ w, (w, Role.flag (some p.slot)) ∈ log
  value : ∀ {w m}, (w, Role.value m) ∈ log → m ∈ g.slots ∧
    (m.arg.isFlag = true → ∃ v, (v, Role.flag (some m)) ∈ log)

theorem start_namedFirst (g : Grammar) : NamedFirst g [] (start g) where
  coherent := start_coherent g
  mem := by simp
  active := by simp [start]
  value := by simp

/-- The argument whose turn it is was named, if it is a flag. -/
theorem NamedFirst.receiver (h : NamedFirst g log s) {p : Progress} (hr : s.receiver = some p)
    (hflag : p.slot.arg.isFlag = true) : ∃ w, (w, Role.flag (some p.slot)) ∈ log := by
  have hno : p.slot ∉ g.positionals := fun hp => by
    rw [(Grammar.mem_positionals.mp hp).2] at hflag
    contradiction
  rcases receiver_cases hr with hf | ⟨-, hp⟩ | ⟨-, -, slot, rest, hpending, rfl⟩
  · exact h.active hf
  · exact absurd (h.coherent.positional hp).mem hno
  · exact absurd (h.coherent.next_mem hpending) hno

theorem NamedFirst.step (h : NamedFirst g log s) (hstep : Step g s word r s') :
    NamedFirst g (log ++ [(word, r)]) s' := by
  have hearlier : ∀ {m}, (∃ w, (w, Role.flag (some m)) ∈ log) →
      ∃ w, (w, Role.flag (some m)) ∈ log ++ [(word, r)] := fun ⟨w, hw⟩ =>
    ⟨w, List.mem_append_left _ hw⟩
  refine ⟨h.coherent.step hstep, ?_, ?_, ?_⟩
  · intro w m hw
    rcases List.mem_append.mp hw with hw | hw
    · exact h.mem hw
    · cases List.mem_singleton.mp hw
      cases hstep with
      | flag ho hoff hw hlook hdone hmatch hclaim => exact Grammar.matchFlag?_mem hmatch
  · intro p hp
    by_cases hvalue : ∃ slot, r = .value slot
    · obtain ⟨slot, rfl⟩ := hvalue
      obtain ⟨q, hq, -, hreceives⟩ := hstep.receives h.coherent
      rw [hreceives.flag] at hp
      cases hf : s.flag with
      | none => simp [hf] at hp
      | some f =>
          rw [receiver_of_flag hf, Option.some.injEq] at hq
          subst hq
          simp only [hf, Option.isSome_some, if_true] at hp
          split at hp
          · contradiction
          · cases hp
            exact hearlier (m := f.slot) (h.active hf)
    · obtain ⟨rfl, -⟩ := (hstep.active_of_ne_value fun slot hslot => hvalue ⟨slot, hslot⟩).2 p hp
      exact ⟨word, by simp⟩
  · intro w m hw
    rcases List.mem_append.mp hw with hw | hw
    · exact ⟨(h.value hw).1, fun hm => hearlier ((h.value hw).2 hm)⟩
    · cases List.mem_singleton.mp hw
      obtain ⟨p, hr, rfl, -⟩ := hstep.receives h.coherent
      exact ⟨h.coherent.receiver_mem hr, fun hm => hearlier (h.receiver hr hm)⟩

/-! ## Destinations of flags -/

/-- No positional has the destination of the flag. -/
def DestOfFlags (g : Grammar) (dest : String) : Prop := ∀ m ∈ g.positionals, m.arg.dest ≠ dest

theorem isFlag_of_dest (halone : DestOfFlags g dest) (hm : m ∈ g.slots) (hdest : m.arg.dest = dest) :
    m.arg.isFlag = true := by
  by_contra hno
  exact halone m (Grammar.mem_positionals.mpr ⟨hm, by simpa using hno⟩) hdest

/-- Of two flags with one destination one is not to be repeated only if they are the same. -/
theorem eq_of_dest (hbuild : spec.build = .ok g) (hf : f ∈ g.slots) (hm : m ∈ g.slots)
    (hfFlag : f.arg.isFlag = true) (hmFlag : m.arg.isFlag = true) (hdest : m.arg.dest = f.arg.dest)
    (honce : f.arg.isReusable = false ∨ m.arg.isReusable = false) : m = f := by
  by_contra hne
  have hindex : m.index ≠ f.index := fun h => hne (Grammar.slot_eq_of_index_eq hm hf h)
  obtain ⟨hmr, hfr⟩ := Grammar.build_dest hbuild hm hf hindex hmFlag hfFlag hdest
  rw [hfr, hmr] at honce
  rcases honce with h | h <;> contradiction

theorem names_iff (hf : f ∈ g.slots) (hm : m ∈ g.slots) :
    (Role.flag (some m)).names f = true ↔ m = f := by
  rw [Role.names, beq_iff_eq]
  exact ⟨Grammar.slot_eq_of_index_eq hm hf, congrArg Slot.index⟩

/-- A flag that is not to be repeated clears its destination, and no other flag does. -/
theorem NamedFirst.clears_eq (h : NamedFirst g log s) (hbuild : spec.build = .ok g)
    (hf : f ∈ g.slots) (hfFlag : f.arg.isFlag = true) (honce : f.arg.isReusable = false)
    {e : String × Role} (he : e ∈ log) : e.2.clears f.arg.dest = e.2.names f := by
  obtain ⟨w, r⟩ := e
  match r with
  | .flag (some m) =>
      obtain ⟨hm, hmFlag⟩ := h.mem he
      rw [Bool.eq_iff_iff, names_iff hf hm, Role.clears_iff]
      constructor
      · rintro ⟨k, hk, -, hdest⟩
        cases hk
        exact eq_of_dest hbuild hf hm hfFlag hmFlag hdest (Or.inl honce)
      · rintro rfl
        exact ⟨m, rfl, honce, rfl⟩
  | .flag none | .value m | .endOfOptions | .passedOver => rfl

/-- The values under the destination of such a flag are its own. -/
theorem NamedFirst.isValueUnder_eq (h : NamedFirst g log s) (hbuild : spec.build = .ok g)
    (hf : f ∈ g.slots) (hfFlag : f.arg.isFlag = true) (honce : f.arg.isReusable = false)
    (halone : DestOfFlags g f.arg.dest) {e : String × Role} (he : e ∈ log) :
    e.2.isValueUnder f.arg.dest = e.2.isValueOf f := by
  obtain ⟨w, r⟩ := e
  match r with
  | .value m =>
      have hm := (h.value he).1
      rw [Bool.eq_iff_iff, Role.isValueUnder_iff, Role.isValueOf, beq_iff_eq]
      constructor
      · rintro ⟨k, hk, hdest⟩
        cases hk
        have hmFlag := isFlag_of_dest halone hm hdest
        rw [eq_of_dest hbuild hf hm hfFlag hmFlag hdest (Or.inl honce)]
      · intro hindex
        exact ⟨m, rfl, by rw [Grammar.slot_eq_of_index_eq hm hf hindex]⟩
  | .flag slot? | .endOfOptions | .passedOver => rfl

/-- Nothing clears the destination of a flag that may be repeated. -/
theorem NamedFirst.clears_eq_false (h : NamedFirst g log s) (hbuild : spec.build = .ok g)
    (hf : f ∈ g.slots) (hfFlag : f.arg.isFlag = true) (hreusable : f.arg.isReusable = true)
    {e : String × Role} (he : e ∈ log) : e.2.clears f.arg.dest = false := by
  obtain ⟨w, r⟩ := e
  by_contra hclears
  obtain ⟨m, rfl, honce, hdest⟩ := Role.clears_iff.mp (Bool.not_eq_false _ ▸ hclears)
  obtain ⟨hm, hmFlag⟩ := h.mem he
  rw [eq_of_dest hbuild hf hm hfFlag hmFlag hdest (Or.inr honce), hreusable] at honce
  contradiction

/-- **Storing overwrites, appending accumulates.** In the state after a run of a built grammar, let no
positional have the destination of the flag `f`. If `f` is not to be repeated and was named, the values
under the destination are the words that became values of `f` after the last word that named it. If `f`
may be repeated, they are all the words of the run that became values under the destination. There is an
entry for the destination just if a flag with this destination was named. -/
theorem store_or_append (hbuild : spec.build = .ok g)
    (hrun : feedAll g (start g) words = .ok (.next s)) (hf : f ∈ g.slots)
    (hfFlag : f.arg.isFlag = true) (halone : DestOfFlags g f.arg.dest) :
    (f.arg.isReusable = false → (∃ e ∈ words.zip (roles g (start g) words), e.2.names f = true) →
      s.values.get? f.arg.dest = some (wordsWhere (·.isValueOf f)
        (afterLast (·.names f) (words.zip (roles g (start g) words))))) ∧
    (f.arg.isReusable = true → (s.values.get? f.arg.dest).getD [] =
      wordsWhere (·.isValueUnder f.arg.dest) (words.zip (roles g (start g) words))) ∧
    ((s.values.get? f.arg.dest).isSome = true ↔
      ∃ e ∈ words.zip (roles g (start g) words), e.2.namesUnder f.arg.dest = true) := by
  have hnamed := feedAll_log_invariant NamedFirst.step (start_namedFirst g) hrun
  have htold := feedAll_log_invariant Recounts.step (start_recounts g) hrun
  generalize words.zip (roles g (start g) words) = log at hnamed htold ⊢
  have hentry : (s.values.get? f.arg.dest).isSome = true ↔
      ∃ e ∈ log, e.2.namesUnder f.arg.dest = true := by
    rw [htold.entry]
    constructor
    · rintro ⟨⟨w, r⟩, he, hvalue | hname⟩
      · -- The flag that took the value was named before.
        obtain ⟨m, rfl, hdest⟩ := Role.isValueUnder_iff.mp hvalue
        obtain ⟨hm, hfirst⟩ := hnamed.value he
        obtain ⟨v, hv⟩ := hfirst (isFlag_of_dest halone hm hdest)
        exact ⟨_, hv, Role.namesUnder_iff.mpr ⟨m, rfl, hdest⟩⟩
      · exact ⟨_, he, hname⟩
    · rintro ⟨e, he, hname⟩
      exact ⟨e, he, Or.inr hname⟩
  refine ⟨?_, ?_, hentry⟩
  · rintro honce ⟨⟨w, r⟩, he, hname⟩
    have hsome : (s.values.get? f.arg.dest).isSome = true := by
      rw [hentry]
      rw [← hnamed.clears_eq hbuild hf hfFlag honce he] at hname
      obtain ⟨m, rfl, -, hdest⟩ := Role.clears_iff.mp hname
      exact ⟨_, he, Role.namesUnder_iff.mpr ⟨m, rfl, hdest⟩⟩
    obtain ⟨vs, hvs⟩ := Option.isSome_iff_exists.mp hsome
    have hvalues := htold.values f.arg.dest
    rw [hvs, Option.getD_some,
      afterLast_congr fun e he => hnamed.clears_eq hbuild hf hfFlag honce he,
      wordsWhere_congr fun e he => hnamed.isValueUnder_eq hbuild hf hfFlag honce halone
        (mem_of_mem_afterLast he)] at hvalues
    rw [hvs, hvalues]
  · intro hreusable
    rw [htold.values,
      afterLast_eq_self fun e he => hnamed.clears_eq_false hbuild hf hfFlag hreusable he]

/-- A command with a flag that is not to be repeated, two that append to one destination, and names. -/
def tagging : GrammarSpec :=
  { prog := "cmd"
    items :=
      [.arg { aliases := ["--owner"] },
        .arg { aliases := ["--tag"], action := .append },
        .arg { aliases := ["--label"], dest := some "tag", action := .append },
        .arg { name := some "names", nargs := some .zeroOrMore }] }

def taggedLine : List String :=
  ["--owner", "a", "--tag", "x", "n", "--own", "b", "--label", "y", "--tag", "z"]

theorem second_owner_overwrites :
    ∃ g s, tagging.build = .ok g ∧ feedAll g (start g) taggedLine = .ok (.next s) ∧
      s.values.get? "owner" = some ["b"] ∧ (s.values.get? "tag").getD [] = ["x", "y", "z"] ∧
      (s.values.get? "tag").isSome = true := by
  obtain ⟨g, s, owner, tag, hbuild, hrun, howner, htag, hownerFlag, htagFlag, hownerDest,
      htagDest, hownerOnce, htagAgain, hdests, hownerNamed, htagNamed, hstored, happended⟩ :
      ∃ g s owner tag, tagging.build = .ok g ∧ feedAll g (start g) taggedLine = .ok (.next s) ∧
        g.slots[0]? = some owner ∧ g.slots[1]? = some tag ∧ owner.arg.isFlag = true ∧
        tag.arg.isFlag = true ∧ owner.arg.dest = "owner" ∧ tag.arg.dest = "tag" ∧
        owner.arg.isReusable = false ∧ tag.arg.isReusable = true ∧
        g.positionals.map (·.arg.dest) = ["names"] ∧
        (taggedLine.zip (roles g (start g) taggedLine)).any (·.2.names owner) = true ∧
        (taggedLine.zip (roles g (start g) taggedLine)).any (·.2.namesUnder "tag") = true ∧
        wordsWhere (·.isValueOf owner) (afterLast (·.names owner)
          (taggedLine.zip (roles g (start g) taggedLine))) = ["b"] ∧
        wordsWhere (·.isValueUnder "tag") (taggedLine.zip (roles g (start g) taggedLine)) =
          ["x", "y", "z"] :=
    ⟨_, _, _, _, rfl, rfl, rfl, rfl, rfl, rfl, rfl, rfl, rfl, rfl, rfl, rfl, rfl, rfl, rfl⟩
  have halone : ∀ dest, dest ≠ "names" → DestOfFlags g dest := by
    intro dest hdest m hm hmd
    have hmem := List.mem_map_of_mem (f := fun m : Slot => m.arg.dest) hm
    rw [hdests, hmd, List.mem_singleton] at hmem
    exact hdest hmem
  obtain ⟨hownerStored, -, -⟩ := store_or_append hbuild hrun (List.mem_of_getElem? howner)
    hownerFlag (hownerDest ▸ halone "owner" (by decide))
  obtain ⟨-, htagAppended, htagEntry⟩ := store_or_append hbuild hrun (List.mem_of_getElem? htag)
    htagFlag (htagDest ▸ halone "tag" (by decide))
  rw [hownerDest] at hownerStored
  rw [htagDest] at htagAppended htagEntry
  refine ⟨g, s, hbuild, hrun, ?_, ?_, ?_⟩
  · rw [hownerStored hownerOnce (List.any_eq_true.mp hownerNamed), hstored]
  · rw [htagAppended htagAgain, happended]
  · exact htagEntry.mpr (List.any_eq_true.mp htagNamed)

end Replay

end TabCompletion
