import Mathlib.Data.List.Nodup
import TabCompletion.ArgTokens

/-!
# Values under other destinations

Changing the values of one destination leaves the values of every other as they are. Where no
destination is listed twice (`DestsDistinct`), a map that is laid over another one wins wherever it
has an entry (`get?_overlay`).
-/

namespace TabCompletion.ArgTokens

variable {t outer inner : ArgTokens} {dest d value : String} {values : List String}

theorem lookup_alterEntries (f : Option (List String) → List String)
    (entries : List (String × List String)) :
    (alterEntries dest f entries).lookup d =
      if d = dest then some (f (entries.lookup dest)) else entries.lookup d := by
  induction entries with
  | nil => simp only [alterEntries, List.lookup_cons, List.lookup_nil]; grind
  | cons e rest ih =>
      obtain ⟨k, vs⟩ := e
      by_cases hk : k = dest
      · subst hk
        simp only [alterEntries, if_true, List.lookup_cons]
        grind
      · simp only [alterEntries, if_neg hk, List.lookup_cons, ih]
        grind

@[simp] theorem get?_push :
    (t.push dest value).get? d =
      if d = dest then some ((t.get? dest).getD [] ++ [value]) else t.get? d :=
  lookup_alterEntries _ _

@[simp] theorem get?_insert :
    (t.insert dest values).get? d = if d = dest then some values else t.get? d :=
  lookup_alterEntries _ _

@[simp] theorem get?_touch :
    (t.touch dest).get? d = if d = dest then some ((t.get? dest).getD []) else t.get? d :=
  lookup_alterEntries _ _

/-- A value that is added is seen. -/
theorem push_ne (t : ArgTokens) (dest value : String) : t.push dest value ≠ t := by
  intro h
  have hget : (t.push dest value).get? dest = t.get? dest := by rw [h]
  rw [get?_push, if_pos rfl] at hget
  cases hvs : t.get? dest with
  | none => simp [hvs] at hget
  | some vs => simp [hvs] at hget

/-- Add values after those of `dest`, one after the other. -/
def pushAll (t : ArgTokens) (dest : String) (values : List String) : ArgTokens :=
  values.foldl (·.push dest ·) t

@[simp] theorem pushAll_nil : t.pushAll dest [] = t := rfl

@[simp] theorem pushAll_cons :
    t.pushAll dest (value :: values) = (t.push dest value).pushAll dest values := rfl

/-- Adding no values leaves no entry behind. -/
theorem get?_pushAll :
    (t.pushAll dest values).get? d =
      if d = dest ∧ values ≠ [] then some ((t.get? dest).getD [] ++ values) else t.get? d := by
  induction values generalizing t with
  | nil => simp
  | cons value values ih =>
      rw [pushAll_cons, ih]
      by_cases hd : d = dest
      · subst hd
        cases values <;> simp
      · simp [hd]

/-! ## Each destination once -/

/-- No destination is listed twice. -/
def DestsDistinct (t : ArgTokens) : Prop := (t.entries.map (·.1)).Nodup

theorem mem_alterEntries_dests {f : Option (List String) → List String}
    {entries : List (String × List String)} :
    d ∈ (alterEntries dest f entries).map (·.1) ↔ d = dest ∨ d ∈ entries.map (·.1) := by
  induction entries with
  | nil => simp [alterEntries]
  | cons e rest ih =>
      rw [alterEntries]
      split
      · next hk => simp [hk]
      · rw [List.map_cons, List.mem_cons, ih, List.map_cons, List.mem_cons, or_left_comm]

theorem alterEntries_destsDistinct {f : Option (List String) → List String}
    {entries : List (String × List String)} (h : (entries.map (·.1)).Nodup) :
    ((alterEntries dest f entries).map (·.1)).Nodup := by
  induction entries with
  | nil => simp [alterEntries]
  | cons e rest ih =>
      obtain ⟨hfresh, hrest⟩ := List.nodup_cons.mp h
      rw [alterEntries]
      split
      · exact List.nodup_cons.mpr ⟨hfresh, hrest⟩
      · next hk =>
          refine List.nodup_cons.mpr ⟨?_, ih hrest⟩
          rw [mem_alterEntries_dests, not_or]
          exact ⟨hk, hfresh⟩

theorem empty_destsDistinct : empty.DestsDistinct := List.nodup_nil

theorem DestsDistinct.push (h : t.DestsDistinct) : (t.push dest value).DestsDistinct :=
  alterEntries_destsDistinct h

theorem DestsDistinct.insert (h : t.DestsDistinct) : (t.insert dest values).DestsDistinct :=
  alterEntries_destsDistinct h

theorem DestsDistinct.touch (h : t.DestsDistinct) : (t.touch dest).DestsDistinct :=
  alterEntries_destsDistinct h

theorem lookup_eq_none {entries : List (String × List String)} (h : d ∉ entries.map (·.1)) :
    entries.lookup d = none := by
  rw [List.lookup_eq_none_iff]
  intro e he
  have hne : d ≠ e.1 := fun hde => h (List.mem_map.mpr ⟨e, he, hde.symm⟩)
  simpa using hne

theorem lookup_cons_of_ne {entries : List (String × List String)} (h : d ≠ dest) :
    List.lookup d ((dest, values) :: entries) = entries.lookup d := by
  rw [List.lookup_cons, beq_false_of_ne h]

theorem mem_entries (h : t.DestsDistinct) : (d, values) ∈ t.entries ↔ t.get? d = some values := by
  obtain ⟨entries⟩ := t
  show (d, values) ∈ entries ↔ entries.lookup d = some values
  induction entries with
  | nil => simp
  | cons e rest ih =>
      obtain ⟨k, vs⟩ := e
      obtain ⟨hfresh, hrest⟩ := List.nodup_cons.mp h
      rw [List.mem_cons, ih hrest]
      by_cases hk : d = k
      · subst hk
        simp [lookup_eq_none hfresh, eq_comm]
      · simp [lookup_cons_of_ne hk, hk]

/-- Values that are the same under every destination are the same up to the order of the
destinations. -/
theorem entries_perm (houter : outer.DestsDistinct) (hinner : inner.DestsDistinct)
    (h : ∀ d, outer.get? d = inner.get? d) : outer.entries.Perm inner.entries := by
  rw [List.perm_ext_iff_of_nodup (List.Nodup.of_map _ houter) (List.Nodup.of_map _ hinner)]
  rintro ⟨d, values⟩
  rw [mem_entries houter, mem_entries hinner, h]

/-- **What is laid over wins**, and shows what is beneath where it has no entry. -/
theorem get?_overlay (h : inner.DestsDistinct) :
    (outer.overlay inner).get? d = (inner.get? d).or (outer.get? d) := by
  obtain ⟨entries⟩ := inner
  induction entries generalizing outer with
  | nil => rfl
  | cons e rest ih =>
      obtain ⟨k, vs⟩ := e
      obtain ⟨hfresh, hrest⟩ := List.nodup_cons.mp h
      have hover : (outer.overlay ⟨(k, vs) :: rest⟩).get? d =
          (List.lookup d rest).or ((outer.insert k vs).get? d) := ih hrest
      rw [hover, get?_insert]
      by_cases hk : d = k
      · -- The rest has no entry that could overwrite this one.
        subst hk
        simp [get?, lookup_eq_none hfresh]
      · rw [if_neg hk]
        show _ = (List.lookup d ((k, vs) :: rest)).or _
        rw [lookup_cons_of_ne hk]

end TabCompletion.ArgTokens
