import TabCompletion.Grammar.Builder
import TabCompletion.Proofs.ArgTokens
import TabCompletion.Proofs.Replay.History

/-!
# Where the words are recorded

What a word turned out to be decides what reading it does to the values (`Step.values_eq`): a value
goes after those of its destination, and a flag that is not to be repeated clears its destination. So
what is recorded under a destination are words of the run, each at a place of its own, and in their
order: the values of that destination since it was last cleared (`placesOf`). No place belongs to two
destinations (`words_are_conserved`).
-/

namespace TabCompletion

variable {dest d : String} {word : String} {values : ArgTokens} {r : Role} {rs : List Role} {i : Nat}

/-! ## What a role records -/

namespace Role

/-- What reading a word of this role does to the values. -/
def record (word : String) (values : ArgTokens) : Role → ArgTokens
  | value slot => values.push slot.arg.dest word
  | flag (some f) =>
    if f.arg.isReusable then values.touch f.arg.dest else values.insert f.arg.dest []
  | flag none => values
  | endOfOptions => values
  | passedOver => values

/-- Whether the word is a value of an argument with this destination. -/
def isValueUnder (dest : String) : Role → Bool
  | value slot => slot.arg.dest == dest
  | _ => false

/-- Whether the word names a flag that begins afresh under this destination. -/
def clears (dest : String) : Role → Bool
  | flag (some f) => !f.arg.isReusable && f.arg.dest == dest
  | _ => false

theorem isValueUnder_iff :
    r.isValueUnder dest = true ↔ ∃ slot, r = .value slot ∧ slot.arg.dest = dest := by
  cases r <;> simp [isValueUnder]

theorem clears_iff :
    r.clears dest = true ↔ ∃ f, r = .flag (some f) ∧ f.arg.isReusable = false ∧ f.arg.dest = dest := by
  cases r with
  | flag slot? => cases slot? <;> simp [clears]
  | value | endOfOptions | passedOver => simp [clears]

theorem isValueUnder_of_clears (h : r.clears dest = true) : r.isValueUnder dest = false := by
  obtain ⟨f, rfl, -⟩ := clears_iff.mp h
  rfl

/-- **What is recorded under a destination after a word**: nothing if the word clears it, else what
was recorded before, and the word if it is a value there. -/
theorem getD_record :
    ((r.record word values).get? dest).getD [] =
      if r.clears dest then []
      else (values.get? dest).getD [] ++ if r.isValueUnder dest then [word] else [] := by
  cases r with
  | value slot =>
      by_cases hdest : dest = slot.arg.dest
      · simp [record, clears, isValueUnder, hdest]
      · have hne : (slot.arg.dest == dest) = false := beq_false_of_ne (Ne.symm hdest)
        simp [record, clears, isValueUnder, hdest, hne]
  | flag slot? =>
      cases slot? with
      | none => simp [record, clears, isValueUnder]
      | some f =>
          by_cases hdest : dest = f.arg.dest
          · cases hreusable : f.arg.isReusable <;>
              simp [record, clears, isValueUnder, hdest, hreusable]
          · have hne : (f.arg.dest == dest) = false := beq_false_of_ne (Ne.symm hdest)
            cases hreusable : f.arg.isReusable <;>
              simp [record, clears, isValueUnder, hdest, hne, hreusable]
  | endOfOptions | passedOver => simp [record, clears, isValueUnder]

theorem record_destsDistinct (h : values.DestsDistinct) : (r.record word values).DestsDistinct := by
  cases r with
  | value slot => exact h.push
  | flag slot? =>
      cases slot? with
      | none => exact h
      | some f =>
          rw [record]
          split
          · exact h.touch
          · exact h.insert
  | endOfOptions | passedOver => exact h

end Role

/-! ## The places of what is recorded -/

/-- Whether the word at a place is a value under the destination, and no later one clears it. -/
def isKept (dest : String) (rs : List Role) (i : Nat) : Bool :=
  rs[i]?.any (·.isValueUnder dest) && !(rs.drop (i + 1)).any (·.clears dest)

/-- The places of the words that are recorded under a destination in the end, in their order. -/
def placesOf (dest : String) (rs : List Role) : List Nat :=
  (List.range rs.length).filter (isKept dest rs)

theorem isKept_iff :
    isKept dest rs i = true ↔ (∃ slot, rs[i]? = some (.value slot) ∧ slot.arg.dest = dest) ∧
      ∀ j f, i < j → rs[j]? = some (.flag (some f)) → f.arg.dest = dest →
        f.arg.isReusable = true := by
  rw [isKept, Bool.and_eq_true, Option.any_eq_true]
  refine and_congr ?_ ?_
  · simp only [Role.isValueUnder_iff]
    constructor
    · rintro ⟨r, hr, slot, rfl, hdest⟩
      exact ⟨slot, hr, hdest⟩
    · rintro ⟨slot, hr, hdest⟩
      exact ⟨_, hr, slot, rfl, hdest⟩
  · simp only [Bool.not_eq_true', List.any_eq_false, Role.clears_iff]
    constructor
    · intro hlater j f hij hj hdest
      by_contra hreusable
      have hmem : Role.flag (some f) ∈ rs.drop (i + 1) := by
        apply List.mem_of_getElem? (i := j - (i + 1))
        rw [List.getElem?_drop]
        have hplace : i + 1 + (j - (i + 1)) = j := by omega
        rw [hplace]
        exact hj
      exact hlater _ hmem ⟨f, rfl, by simpa using hreusable, hdest⟩
    · rintro hlater r hr ⟨f, rfl, hreusable, hdest⟩
      obtain ⟨k, hk⟩ := List.getElem?_of_mem hr
      rw [List.getElem?_drop] at hk
      have htrue := hlater (i + 1 + k) f (by omega) hk hdest
      rw [hreusable] at htrue
      contradiction

theorem mem_placesOf : i ∈ placesOf dest rs ↔ isKept dest rs i = true := by
  rw [placesOf, List.mem_filter, List.mem_range]
  constructor
  · rintro ⟨-, hkept⟩
    exact hkept
  · intro hkept
    obtain ⟨⟨slot, hslot, -⟩, -⟩ := isKept_iff.mp hkept
    exact ⟨(List.getElem?_eq_some_iff.mp hslot).1, hkept⟩

theorem placesOf_pairwise : (placesOf dest rs).Pairwise (· < ·) :=
  List.Pairwise.filter _ List.pairwise_lt_range

/-- A place is of one destination only, that of the value there. -/
theorem placesOf_disjoint (hne : dest ≠ d) : List.Disjoint (placesOf dest rs) (placesOf d rs) := by
  intro i hi hj
  obtain ⟨⟨slot, hslot, rfl⟩, -⟩ := isKept_iff.mp (mem_placesOf.mp hi)
  obtain ⟨⟨slot', hslot', rfl⟩, -⟩ := isKept_iff.mp (mem_placesOf.mp hj)
  rw [hslot] at hslot'
  cases hslot'
  exact hne rfl

theorem isKept_append_of_lt (hi : i < rs.length) :
    isKept dest (rs ++ [r]) i = (isKept dest rs i && !r.clears dest) := by
  rw [isKept, isKept, List.getElem?_append_left hi, List.drop_append_of_le_length hi,
    List.any_append, Bool.not_or, Bool.and_assoc]
  simp

theorem isKept_append_last : isKept dest (rs ++ [r]) rs.length = r.isValueUnder dest := by
  rw [isKept, List.getElem?_concat_length, List.drop_of_length_le (by simp)]
  simp

/-- **The places after one more word**: none if the word clears the destination, else those before,
and the last one if the word is a value there. -/
theorem placesOf_append_singleton :
    placesOf dest (rs ++ [r]) =
      if r.clears dest then []
      else placesOf dest rs ++ if r.isValueUnder dest then [rs.length] else [] := by
  have hbefore : (List.range rs.length).filter (isKept dest (rs ++ [r])) =
      if r.clears dest then [] else placesOf dest rs := by
    have hcongr : (List.range rs.length).filter (isKept dest (rs ++ [r])) =
        (List.range rs.length).filter fun i => isKept dest rs i && !r.clears dest :=
      List.filter_congr fun i hi => isKept_append_of_lt (List.mem_range.mp hi)
    rw [hcongr]
    -- Whether the word clears the destination is decided for all earlier places alike.
    cases r.clears dest <;> simp [placesOf]
  rw [placesOf, List.length_append, List.length_singleton, List.range_succ, List.filter_append,
    hbefore, List.filter_singleton, isKept_append_last]
  cases hclears : r.clears dest with
  | false => simp
  | true => simp [Role.isValueUnder_of_clears hclears]

namespace Replay

variable {g : Grammar} {s s' : Replay} {words : List String}

/-! ## Steps and runs -/

/-- **What a word turned out to be decides what is recorded.** -/
theorem Step.values_eq (hstep : Step g s word r s') : s'.values = r.record word s.values := by
  cases hstep with
  | remainderValue | remainderFlagValue | remainderFlagEnd | endOfOptions | unknownFlag | flagValue
  | passedOver => rfl
  | flag ho hoff hw hlook hdone hmatch hclaim =>
      rw [withFlag_eq]
      show valuesAtFlag _ _ = _
      rw [valuesAtFlag, (claimGroup_narrows hclaim).values]
      rfl
  | activeValue ho hv hf hp hclaim =>
      rw [withPositionalValue_values, (claimGroup_narrows hclaim).values]
      rfl
  | nextValue ho hv hf hp hpending hsub hclaim =>
      rw [withPositionalValue_values, (claimGroup_narrows hclaim).values]
      rfl

theorem Step.destsDistinct (h : s.values.DestsDistinct) (hstep : Step g s word r s') :
    s'.values.DestsDistinct := by
  rw [hstep.values_eq]
  exact Role.record_destsDistinct h

/-- What is recorded under each destination are the words at its places. -/
structure Conserved (words : List String) (rs : List Role) (s : Replay) : Prop where
  length : rs.length = words.length
  values : ∀ dest, ((s.values.get? dest).getD []).map some = (placesOf dest rs).map (words[·]?)

theorem start_conserved (g : Grammar) : Conserved [] [] (start g) where
  length := rfl
  values _ := rfl

theorem Conserved.step (h : Conserved words rs s) (hstep : Step g s word r s') :
    Conserved (words ++ [word]) (rs ++ [r]) s' := by
  refine ⟨by simp [h.length], ?_⟩
  intro dest
  rw [hstep.values_eq, Role.getD_record, placesOf_append_singleton]
  split
  · rfl
  · -- The earlier places hold the words that they held before.
    have hearlier : (placesOf dest rs).map ((words ++ [word])[·]?) =
        (placesOf dest rs).map (words[·]?) := by
      apply List.map_congr_left
      intro i hi
      have hlt : i < rs.length := List.mem_range.mp (List.mem_filter.mp hi).1
      exact List.getElem?_append_left (h.length ▸ hlt)
    rw [List.map_append, List.map_append, h.values, hearlier]
    split
    · simp [h.length]
    · rfl

/-- **Every word is recorded at most once, and nothing else is recorded.** After a run, what is
recorded under a destination are the words at certain places, in the order of the places. No place
belongs to two destinations. The places of a destination are those whose word was a value of an
argument with this destination, and after which no word named a flag with this destination that is
not to be repeated. -/
theorem words_are_conserved (h : feedAll g (start g) words = .ok (.next s)) :
    (roles g (start g) words).length = words.length ∧
    (∀ dest, ((s.values.get? dest).getD []).map some =
      (placesOf dest (roles g (start g) words)).map (words[·]?)) ∧
    (∀ dest, (placesOf dest (roles g (start g) words)).Pairwise (· < ·)) ∧
    (∀ dest d, dest ≠ d → List.Disjoint (placesOf dest (roles g (start g) words))
      (placesOf d (roles g (start g) words))) ∧
    ∀ dest i, i ∈ placesOf dest (roles g (start g) words) ↔
      (∃ slot, (roles g (start g) words)[i]? = some (.value slot) ∧ slot.arg.dest = dest) ∧
        ∀ j f, i < j → (roles g (start g) words)[j]? = some (.flag (some f)) → f.arg.dest = dest →
          f.arg.isReusable = true := by
  have hs : Conserved words (roles g (start g) words) s :=
    feedAll_roles_invariant Conserved.step (start_conserved g) h
  refine ⟨hs.length, hs.values, fun _ => placesOf_pairwise, fun _ _ => placesOf_disjoint, ?_⟩
  intro dest i
  rw [mem_placesOf, isKept_iff]

/-- A command with a flag that is not to be repeated, one that may be, and positionals that share the
destination of the latter. -/
def labelling : GrammarSpec :=
  { prog := "cmd"
    items :=
      [.arg { aliases := ["--one"] }, .arg { aliases := ["--tag"], action := .append },
        .arg { name := some "more", dest := some "tag", nargs := some .zeroOrMore }] }

theorem second_one_clears_first :
    ∃ g s, labelling.build = .ok g ∧
      feedAll g (start g) ["--one", "a", "--one", "b", "--tag", "c", "d"] = .ok (.next s) ∧
      ((s.values.get? "one").getD []).map some = [some "b"] ∧
      ((s.values.get? "tag").getD []).map some = [some "c", some "d"] ∧
      List.Disjoint [3] [5, 6] := by
  obtain ⟨g, s, hbuild, hrun, hone, htag⟩ :
      ∃ g s, labelling.build = .ok g ∧
        feedAll g (start g) ["--one", "a", "--one", "b", "--tag", "c", "d"] = .ok (.next s) ∧
        placesOf "one" (roles g (start g) ["--one", "a", "--one", "b", "--tag", "c", "d"]) = [3] ∧
        placesOf "tag" (roles g (start g) ["--one", "a", "--one", "b", "--tag", "c", "d"]) = [5, 6] :=
    ⟨_, _, rfl, rfl, rfl, rfl⟩
  obtain ⟨-, hvalues, -, hdisjoint, -⟩ := words_are_conserved hrun
  have hvaluesOne := hvalues "one"
  have hvaluesTag := hvalues "tag"
  have hapart := hdisjoint "one" "tag" (by decide)
  rw [hone] at hvaluesOne hapart
  rw [htag] at hvaluesTag hapart
  exact ⟨g, s, hbuild, hrun, hvaluesOne, hvaluesTag, hapart⟩

end Replay

end TabCompletion
