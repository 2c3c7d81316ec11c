import TabCompletion.Text.Blank

/-!
# Lines of a text

A line is what stands before a line feed (`endedLines`). Texts that are put one after the other, each with
a line feed after it, are the lines of what they make just if none of them has a line feed of its own
(`flatMap_segments_eq_iff`).
-/

namespace TabCompletion.Text

variable {s : String}

/-- The parts of a text between its line feeds. -/
def segments (s : String) : List String := (s.toList.splitOn '\n').map String.ofList

/-- The lines of a text: those of its parts that a line feed ends. -/
def endedLines (s : String) : List String := (segments s).dropLast

theorem segments_append_lineFeed (s t : String) :
    segments (s ++ "\n" ++ t) = segments s ++ segments t := by
  have happend : (s ++ "\n" ++ t).toList = s.toList ++ '\n' :: t.toList := by simp
  rw [segments, happend, List.splitOn_append_cons_self, List.map_append]
  rfl

theorem segments_of_notMem (h : '\n' ∉ s.toList) : segments s = [s] := by
  rw [segments, List.splitOn_eq_singleton h, List.map_singleton, String.ofList_toList]

theorem length_splitOn_lineFeed (cs : List Char) :
    (cs.splitOn '\n').length = cs.count '\n' + 1 := by
  induction cs with
  | nil => rfl
  | cons c cs ih =>
      rw [List.splitOn_cons_eq_if_modifyHead, List.count_cons]
      split
      · rw [List.length_cons, ih]
      · rw [List.length_modifyHead, ih, Nat.add_zero]

theorem length_segments (s : String) : (segments s).length = s.toList.count '\n' + 1 := by
  rw [segments, List.length_map, length_splitOn_lineFeed]

theorem segments_join (ls : List String) :
    segments (String.join (ls.map (· ++ "\n"))) = ls.flatMap segments ++ [""] := by
  induction ls with
  | nil => rfl
  | cons l ls ih =>
      rw [List.map_cons, String.join_cons, segments_append_lineFeed, ih, List.flatMap_cons,
        List.append_assoc]

/-- **Printed texts are read as their parts.** -/
theorem endedLines_join (ls : List String) :
    endedLines (String.join (ls.map (· ++ "\n"))) = ls.flatMap segments := by
  rw [endedLines, segments_join, List.dropLast_concat]

theorem join_eq_empty_iff {ls : List String} :
    String.join (ls.map (· ++ "\n")) = "" ↔ ls = [] := by
  cases ls with
  | nil => simp
  | cons l ls => simp [String.join_cons]

/-- Every line feed in a text makes one more line of it. -/
theorem length_flatMap_segments (ls : List String) :
    (ls.flatMap segments).length = ls.length + (String.join ls).toList.count '\n' := by
  induction ls with
  | nil => rfl
  | cons l ls ih =>
      rw [List.flatMap_cons, List.length_append, length_segments, ih, String.join_cons,
        String.toList_append, List.count_append, List.length_cons]
      omega

/-- **Each text is one line just if none has a line feed.** -/
theorem flatMap_segments_eq_iff {ls : List String} :
    ls.flatMap segments = ls ↔ ∀ l ∈ ls, '\n' ∉ l.toList := by
  constructor
  · intro h l hl hfeed
    have hlength := length_flatMap_segments ls
    rw [h] at hlength
    have hnone : '\n' ∉ (String.join ls).toList := List.count_eq_zero.mp (by omega)
    rw [String.toList_join] at hnone
    exact hnone (List.mem_flatMap.mpr ⟨l, hl, hfeed⟩)
  · intro h
    induction ls with
    | nil => rfl
    | cons l ls ih =>
        obtain ⟨hl, hls⟩ := List.forall_mem_cons.mp h
        rw [List.flatMap_cons, segments_of_notMem hl, ih hls, List.singleton_append]

theorem mem_of_mem_trimEnd {c : Char} (h : c ∈ (trimEnd s).toList) : c ∈ s.toList := by
  rw [trimEnd, String.toList_ofList, dropEndWhile, List.mem_reverse] at h
  exact List.mem_reverse.mp ((List.dropWhile_sublist _).subset h)

end TabCompletion.Text
