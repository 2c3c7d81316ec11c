import Mathlib.Data.List.TakeWhile
import Mathlib.Data.String.Basic
import TabCompletion.PathCompletion
import TabCompletion.Proofs.FileTree
import TabCompletion.Proofs.Sorting

/-!
# What is offered for a path

`Divides` says what the directory and the name of a typed path are, however they are found. Offered are
the members of that directory that go on from the name, each once and in order (`lists_complete`).
A directory is offered with a separator behind it, and this leads to where its name leads in the
directory before it (`directoryFrom_pathOf`); so completing goes on with its members.

Main statement: `members_are_offered`.
-/

namespace TabCompletion

namespace PartialPath

variable {p : PartialPath} {text base path : String} {e e' : DirectoryEntry}
  {entries : List DirectoryEntry}

theorem ne_separator_of_notMem {cs : List Char} (h : Path.separator ∉ cs) :
    ∀ c ∈ cs, (c != Path.separator) = true := by
  intro c hc
  rw [bne_iff_ne]
  rintro rfl
  exact h hc

/-! ## The division of a path -/

/-- The directory is what stands up to the last separator of a text, and the name is the rest. -/
structure Divides (p : PartialPath) (text : String) : Prop where
  text_eq : text = p.directory ++ p.name
  separator_notMem : Path.separator ∉ p.name.toList
  directory_ends : p.directory = "" ∨ p.directory.toList.getLast? = some Path.separator

/-- **A text is divided after its last separator.** -/
theorem divides_ofText (text : String) : (ofText text).Divides text where
  text_eq := by
    rw [← String.toList_inj]
    simp [ofText, ← List.reverse_append]
  separator_notMem := by
    intro hin
    have hname : Path.separator ∈ text.toList.reverse.takeWhile (· != Path.separator) := by
      simpa [ofText] using hin
    simpa using List.mem_takeWhile_imp hname
  directory_ends := by
    have hhead := List.head?_dropWhile_not (· != Path.separator) text.toList.reverse
    cases hrest : text.toList.reverse.dropWhile (· != Path.separator) with
    | nil =>
        left
        simp [ofText, hrest]
    | cons c cs =>
        right
        rw [hrest] at hhead
        simpa [ofText, hrest] using hhead

/-- A text is divided in one way only. -/
theorem Divides.ofText_eq (h : p.Divides text) : ofText text = p := by
  have hname : ∀ c ∈ p.name.toList.reverse, (c != Path.separator) = true := by
    apply ne_separator_of_notMem
    rw [List.mem_reverse]
    exact h.separator_notMem
  have htake : p.directory.toList.reverse.takeWhile (· != Path.separator) = [] := by
    rcases h.directory_ends with hempty | hends
    · simp [hempty]
    · obtain ⟨front, hfront⟩ := List.getLast?_eq_some_iff.mp hends
      simp [hfront]
  have hdrop : p.directory.toList.reverse.dropWhile (· != Path.separator) =
      p.directory.toList.reverse := by
    simpa [htake] using List.takeWhile_append_dropWhile (p := (· != Path.separator))
      (l := p.directory.toList.reverse)
  unfold ofText
  rw [h.text_eq, String.toList_append, List.reverse_append]
  simp only [List.takeWhile_append_of_pos hname, List.dropWhile_append_of_pos hname, htake, hdrop]
  simp

/-- The path of a directory is divided behind it: no name is begun yet. -/
theorem ofText_pathOf (hdirectory : e.isDirectory = true) :
    ofText (p.pathOf e) = ⟨p.pathOf e, ""⟩ := by
  apply Divides.ofText_eq
  refine ⟨by simp, by simp, Or.inr ?_⟩
  simp [pathOf, hdirectory]

/-! ## Paths of members -/

/-- The path of a member tells its name. -/
theorem name_eq_of_pathOf_eq (hname : Path.separator ∉ e.name.toList)
    (hname' : Path.separator ∉ e'.name.toList) (h : p.pathOf e = p.pathOf e') :
    e.name = e'.name := by
  have hread {d : DirectoryEntry} (hd : Path.separator ∉ d.name.toList) :
      (d.name ++ if d.isDirectory then String.singleton Path.separator else "").toList.takeWhile
        (· != Path.separator) = d.name.toList := by
    rw [String.toList_append, List.takeWhile_append_of_pos (ne_separator_of_notMem hd)]
    cases d.isDirectory <;> simp
  rw [pathOf, pathOf, String.append_assoc, String.append_assoc, String.append_right_inj] at h
  rw [← String.toList_inj, ← hread hname, h, hread hname']

theorem offers_iff :
    p.offers e = true ↔
      p.name.toList <+: e.name.toList ∧ (isHidden e.name = true → isHidden p.name = true) := by
  rw [offers, Text.beginsWith, Bool.and_eq_true, List.isPrefixOf_iff_prefix]
  cases isHidden e.name <;> simp

theorem mem_complete :
    path ∈ p.complete entries ↔ ∃ e ∈ entries, p.offers e = true ∧ path = p.pathOf e := by
  rw [complete, (Sorting.stableSortByText_perm _ _).mem_iff, List.mem_map]
  grind

/-- What is offered goes on from what was typed. -/
theorem Divides.exists_pathOf_eq (h : p.Divides text) (hoffers : p.offers e = true) :
    ∃ rest, p.pathOf e = text ++ rest := by
  obtain ⟨rest, hrest⟩ := (offers_iff.mp hoffers).1
  have hname : e.name = p.name ++ String.ofList rest := by
    rw [← String.toList_inj, ← hrest]
    simp
  refine ⟨String.ofList rest ++ if e.isDirectory then String.singleton Path.separator else "", ?_⟩
  rw [pathOf, h.text_eq, hname]
  simp only [String.append_assoc]

/-- The paths of members with distinct names are distinct, so their order is strict. -/
theorem complete_increasing (hdistinct : (entries.map (·.name)).Nodup)
    (hnames : ∀ e ∈ entries, Path.separator ∉ e.name.toList) :
    (p.complete entries).Pairwise (· < ·) := by
  have hsorted := Sorting.stableSortByText_stablyOrdered String.toList
    ((entries.filter p.offers).map p.pathOf)
  have hnodup : (p.complete entries).Nodup := by
    apply hsorted.perm.nodup_iff.mpr
    rw [List.nodup_iff_pairwise_ne, List.pairwise_map] at hdistinct ⊢
    refine (hdistinct.filter p.offers).imp_of_mem ?_
    intro a b ha hb hne hpath
    exact hne (name_eq_of_pathOf_eq (hnames a (List.mem_filter.mp ha).1)
      (hnames b (List.mem_filter.mp hb).1) hpath)
  refine hsorted.ordered.imp₂ ?_ hnodup
  intro a b hle hne
  exact String.lt_iff_toList_lt.mpr (lt_of_le_of_ne hle (mt String.toList_inj.mp hne))

/-! ## Going on with a directory -/

/-- **The path of a directory leads to where its name leads in the directory before it.** -/
theorem Divides.directoryFrom_pathOf (h : p.Divides text) (hdirectory : e.isDirectory = true)
    (hname : IsFileName e.name) (hne : p.directoryFrom base ≠ "") :
    (⟨p.pathOf e, ""⟩ : PartialPath).directoryFrom base =
      Path.join (p.directoryFrom base) e.name ++ String.singleton Path.separator := by
  have hpath : p.pathOf e = p.directory ++ e.name ++ String.singleton Path.separator := by
    simp [pathOf, hdirectory]
  have hfull : p.directory ++ e.name ≠ "" := by
    simp [hname.ne_empty]
  have hjoin : Path.join base (p.directory ++ e.name) = Path.join (p.directoryFrom base) e.name := by
    by_cases hempty : p.directory = ""
    · simp [directoryFrom, hempty]
    · have hends := h.directory_ends.resolve_left hempty
      rw [← Path.getLast?_join hempty base] at hends
      have hfrom : p.directoryFrom base = Path.join base p.directory := by
        simp [directoryFrom, hempty]
      rw [hfrom] at hne ⊢
      rw [Path.join_append hempty, Path.join_name hne hname.separator_notMem, if_pos hends]
  rw [directoryFrom, if_neg (by simp [hpath]), hpath, Path.join_append hfull, hjoin]

end PartialPath

namespace FileTree

open PartialPath

variable {t : FileTree} {p : PartialPath} {base text : String} {e : DirectoryEntry}
  {entries : List DirectoryEntry}

theorem completePath_eq_ok (h : p.Divides text)
    (hlist : t.list (p.directoryFrom base) = .ok entries) :
    t.completePath base text = .ok (p.complete entries) := by
  simp only [completePath, h.ofText_eq, hlist]

/-- `paths` are those of the members that are shown, in order: `directory` with the name of the member
behind it, and behind that a separator if the member is a directory. -/
structure Lists (directory : String) (shown : DirectoryEntry → Prop)
    (entries : List DirectoryEntry) (paths : List String) : Prop where
  increasing : paths.Pairwise (· < ·)
  mem_iff (path : String) : path ∈ paths ↔
    ∃ e ∈ entries, shown e ∧ path = directory ++ e.name ++ if e.isDirectory then "/" else ""

/-- What is offered for a name are the members that go on from it, but hidden ones only for a name that
begins as theirs do. -/
theorem WellFormed.lists_complete (ht : t.WellFormed) {path : String} (p : PartialPath)
    (hlist : t.list path = .ok entries) :
    Lists p.directory
      (fun e => p.name.toList <+: e.name.toList ∧ (isHidden e.name = true → isHidden p.name = true))
      entries (p.complete entries) where
  increasing := by
    obtain ⟨l, -, -, rfl⟩ := list_eq_ok.mp hlist
    exact complete_increasing (ht.names_nodup l) fun e he => (ht.isFileName he).separator_notMem
  mem_iff path := by
    simp only [mem_complete, offers_iff]
    rfl

/-- After a directory that is offered its visible members are, whatever their names begin with. -/
theorem WellFormed.complete_pathOf (ht : t.WellFormed) (h : p.Divides text)
    (hlist : t.list (p.directoryFrom base) = .ok entries) (he : e ∈ entries)
    (hdirectory : e.isDirectory = true) :
    ∃ inner, t.list (Path.join (p.directoryFrom base) e.name) = .ok inner ∧
      ∃ paths, t.completePath base (p.pathOf e) = .ok paths ∧
        Lists (p.pathOf e) (fun d => isHidden d.name = false) inner paths := by
  obtain ⟨inner, hinner, hseparator⟩ := ht.list_join hlist he hdirectory
  obtain ⟨l, hpath, -, rfl⟩ := list_eq_ok.mp hlist
  rw [← h.directoryFrom_pathOf hdirectory (ht.isFileName he) (locate_eq_ok.mp hpath).2.1] at hseparator
  have hdivides : Divides ⟨p.pathOf e, ""⟩ (p.pathOf e) := by
    rw [← ofText_pathOf hdirectory]
    exact divides_ofText _
  refine ⟨inner, hinner, _, completePath_eq_ok hdivides hseparator, ?_⟩
  simpa [isHidden] using ht.lists_complete ⟨p.pathOf e, ""⟩ hseparator

/-- **What is offered for a path are the visible members of its directory, in order, and what is
offered for the path of a directory among them are the visible members of that directory.** -/
theorem members_are_offered (ht : t.WellFormed) (base text : String) :
    ∃ p : PartialPath, p.Divides text ∧
      ∀ entries, t.list (p.directoryFrom base) = .ok entries →
        ∃ paths, t.completePath base text = .ok paths ∧
          Lists p.directory
            (fun e => p.name.toList <+: e.name.toList ∧
              (isHidden e.name = true → isHidden p.name = true)) entries paths ∧
          (∀ path ∈ paths, ∃ rest, path = text ++ rest) ∧
          ∀ e ∈ entries, e.isDirectory = true →
            ∃ inner, t.list (Path.join (p.directoryFrom base) e.name) = .ok inner ∧
            ∃ innerPaths, t.completePath base (p.directory ++ e.name ++ "/") = .ok innerPaths ∧
              Lists (p.directory ++ e.name ++ "/") (fun d => isHidden d.name = false) inner
                innerPaths := by
  have hdivides := divides_ofText text
  generalize ofText text = p at hdivides
  refine ⟨p, hdivides, ?_⟩
  intro entries hlist
  refine ⟨p.complete entries, completePath_eq_ok hdivides hlist, ht.lists_complete p hlist, ?_, ?_⟩
  · intro path hpath
    obtain ⟨e, -, hoffers, rfl⟩ := mem_complete.mp hpath
    exact hdivides.exists_pathOf_eq hoffers
  · intro e he hdirectory
    have hpath : p.directory ++ e.name ++ "/" = p.pathOf e := by
      rw [pathOf, if_pos hdirectory]
      rfl
    rw [hpath]
    exact ht.complete_pathOf hdivides hlist he hdirectory

/-- Two songs, one of them hidden, in a directory beside a file. -/
def songTree : FileTree where
  workingDirectory := ["home"]
  nodes :=
    [(["home"], .directory), (["home", "songs"], .directory), (["home", "setlist.txt"], .file ""),
      (["home", "songs", "intro.flac"], .file ""), (["home", "songs", ".draft"], .file "")]

theorem songTree_wellFormed : songTree.WellFormed where
  distinct := by decide
  named := by decide

theorem songs_and_what_is_in_them :
    songTree.WellFormed ∧
      songTree.list "." = .ok [⟨"songs", true⟩, ⟨"setlist.txt", false⟩] ∧
      ∃ paths, songTree.completePath "." "s" = .ok paths ∧ paths.Pairwise (· < ·) ∧
        "songs/" ∈ paths ∧
        ∃ inner, songTree.completePath "." "songs/" = .ok inner ∧
          "songs/intro.flac" ∈ inner ∧ "songs/.draft" ∉ inner := by
  have hlist : songTree.list "." = .ok [⟨"songs", true⟩, ⟨"setlist.txt", false⟩] := by rfl
  have hinside : songTree.list "./songs" = .ok [⟨"intro.flac", false⟩, ⟨".draft", false⟩] := by rfl
  refine ⟨songTree_wellFormed, hlist, ?_⟩
  obtain ⟨p, hdivides, hoffered⟩ := members_are_offered songTree_wellFormed "." "s"
  obtain rfl := hdivides.ofText_eq
  obtain ⟨paths, hpaths, hlists, -, hdirectories⟩ := hoffered _ hlist
  obtain ⟨entries, hentries, inner, hinner, hlistsInner⟩ :=
    hdirectories ⟨"songs", true⟩ (by decide) rfl
  obtain rfl := Except.ok.inj (hinside.symm.trans hentries)
  refine ⟨paths, hpaths, hlists.increasing, ?_, inner, hinner, ?_, ?_⟩
  · exact (hlists.mem_iff _).mpr ⟨⟨"songs", true⟩, by decide, ⟨by decide, by decide⟩, by decide⟩
  · exact (hlistsInner.mem_iff _).mpr ⟨⟨"intro.flac", false⟩, by decide, by decide, by decide⟩
  · intro hdraft
    obtain ⟨d, hd, hvisible, hpath⟩ := (hlistsInner.mem_iff _).mp hdraft
    revert d
    decide

end FileTree

end TabCompletion
