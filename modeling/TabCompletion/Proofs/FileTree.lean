import Mathlib.Data.List.Nodup
import Mathlib.Tactic.MkIffOfInductiveProp
import TabCompletion.FileTree

/-!
# Well-formed file trees

In a well-formed tree every location is listed once, and all names are ones that a file system takes
(`FileTree.WellFormed`); whatever is put or saved in a tree keeps it so. The members of a directory
then have distinct names (`names_nodup`), and the path of a directory with the name of a member leads
to that member (`locate_join`).
-/

namespace TabCompletion

/-! ## Paths and their names -/

namespace Path

variable {path name : String} {cs : List Char}

theorem pieces_eq_splitOn (cs : List Char) : pieces cs = cs.splitOn separator := by
  induction cs with
  | nil => rfl
  | cons c cs ih =>
      rw [pieces, ih, List.splitOn_cons_eq_if_modifyHead]
      obtain ⟨p, ps, hcons⟩ := List.exists_cons_of_ne_nil (List.splitOn_ne_nil separator cs)
      simp [hcons]

/-- A name without separators is its own only piece. -/
theorem names_of_separator_notMem (h : separator ∉ name.toList) : names name = [name] := by
  rw [names, pieces_eq_splitOn, List.splitOn_eq_singleton h]
  simp

/-- A separator ends one name and begins another. -/
theorem names_append (a b : String) :
    names (a ++ String.singleton separator ++ b) = names a ++ names b := by
  have happ : (a ++ String.singleton separator ++ b).toList = a.toList ++ separator :: b.toList := by
    simp
  simp only [names, pieces_eq_splitOn]
  rw [happ, List.splitOn_append_cons_self, List.map_append]

theorem names_append_separator (path : String) :
    names (path ++ String.singleton separator) = names path ++ [""] := by
  have h := names_append path ""
  rwa [String.append_empty] at h

theorem exists_eq_append_separator (h : path.toList.getLast? = some separator) :
    ∃ front, path = front ++ String.singleton separator := by
  obtain ⟨cs, hcs⟩ := List.getLast?_eq_some_iff.mp h
  refine ⟨String.ofList cs, ?_⟩
  rw [← String.toList_inj, hcs]
  simp

/-- A name is joined to a path with one separator between them. -/
theorem join_name (hpath : path ≠ "") (hname : separator ∉ name.toList) :
    join path name =
      if path.toList.getLast? = some separator then path ++ name
      else path ++ String.singleton separator ++ name := by
  have hrelative : isAbsolute name = false := by
    rw [isAbsolute, beq_eq_false_iff_ne]
    exact fun hhead => hname (List.mem_of_head? hhead)
  simp [join, hrelative, hpath]

theorem isAbsolute_append (hpath : path ≠ "") (rest : String) :
    isAbsolute (path ++ rest) = isAbsolute path := by
  obtain ⟨c, cs, hcons⟩ := List.exists_cons_of_ne_nil (mt String.toList_eq_nil_iff.mp hpath)
  simp [isAbsolute, hcons]

/-- What follows a path follows it wherever it is joined to. -/
theorem join_append (hpath : path ≠ "") (base rest : String) :
    join base (path ++ rest) = join base path ++ rest := by
  simp only [join, isAbsolute_append hpath]
  split_ifs <;> simp [String.append_assoc]

/-- A path that is joined to another is its end. -/
theorem exists_join_eq_append (base path : String) : ∃ front, join base path = front ++ path := by
  unfold join
  split_ifs
  · exact ⟨"", (String.empty_append).symm⟩
  · exact ⟨base, rfl⟩
  · exact ⟨base ++ String.singleton separator, rfl⟩

theorem getLast?_join (hpath : path ≠ "") (base : String) :
    (join base path).toList.getLast? = path.toList.getLast? := by
  obtain ⟨front, hfront⟩ := exists_join_eq_append base path
  rw [hfront, String.toList_append]
  apply List.getLast?_append_of_ne_nil
  exact mt String.toList_eq_nil_iff.mp hpath

/-- No piece of a path has a separator in it, nor a character that the path does not have. -/
theorem notMem_of_mem_pieces {c : Char} (h : c = separator ∨ c ∉ cs) :
    ∀ p ∈ pieces cs, c ∉ p := by
  induction cs with
  | nil => simp [pieces]
  | cons d cs ih =>
      have ih := ih (h.imp_right fun hc hin => hc (List.mem_cons_of_mem d hin))
      rw [pieces]
      split
      · simpa using ih
      · next hne =>
          have hcd : c ≠ d := by
            rintro rfl
            exact h.elim hne (· List.mem_cons_self)
          split
          · simpa using hcd
          · next p ps hcons =>
              rw [hcons] at ih
              simpa [hcd] using ih

/-- A text that can be a name of a path: no separator is in it, and no null character. -/
def IsName (name : String) : Prop := separator ∉ name.toList ∧ '\x00' ∉ name.toList

/-- What stands between the separators of a path can be a name. -/
theorem isName_of_mem_names (hnull : '\x00' ∉ path.toList) (hname : name ∈ names path) :
    IsName name := by
  obtain ⟨p, hp, rfl⟩ := List.mem_map.mp hname
  have hseparator : separator ∉ p := notMem_of_mem_pieces (Or.inl rfl) p hp
  have hnull : '\x00' ∉ p := notMem_of_mem_pieces (Or.inr hnull) p hp
  simpa [IsName] using ⟨hseparator, hnull⟩

end Path

/-! ## Names of files -/

/-- A name that a file system takes for a member of a directory. -/
@[mk_iff]
structure IsFileName (name : String) : Prop where
  ne_empty : name ≠ ""
  ne_here : name ≠ "."
  ne_parent : name ≠ ".."
  separator_notMem : Path.separator ∉ name.toList
  null_notMem : '\x00' ∉ name.toList
  byteLength_le : Text.byteLength name.toList ≤ FileTree.maxNameLength

instance (name : String) : Decidable (IsFileName name) :=
  decidable_of_iff' _ (isFileName_iff name)

namespace FileTree

variable {t t' : FileTree} {l here start : Location} {n : FileNode} {e : DirectoryEntry}
  {entries : List DirectoryEntry} {path name text : String} {ns : List String}

/-- Every location is listed once, and only names of files lead to it. -/
structure WellFormed (t : FileTree) : Prop where
  distinct : (t.nodes.map (·.1)).Nodup
  named : ∀ n ∈ t.nodes, ∀ name ∈ n.1, IsFileName name

/-! ## Walks -/

theorem walk_append (here : Location) (ns ms : List String) :
    t.walk here (ns ++ ms) = (t.walk here ns).bind fun l => t.walk l ms := by
  induction ns generalizing here with
  | nil => rfl
  | cons name ns ih =>
      rw [List.cons_append, walk, walk]
      split_ifs <;> first | rfl | exact ih _

/-- An empty name after others asks for a directory, and leads nowhere else. -/
theorem walk_append_empty :
    t.walk here (ns ++ [""]) = .ok l ↔ t.walk here ns = .ok l ∧ t.node? l = some .directory := by
  rw [walk_append]
  cases t.walk here ns with
  | error e => simp [Except.bind]
  | ok l' =>
      simp only [Except.bind, walk]
      split_ifs <;> grind

/-- The name of a member leads to it. -/
theorem walk_append_member (hwalk : t.walk here ns = .ok l) (hl : t.node? l = some .directory)
    (hname : IsFileName name) (hmember : (t.node? (l ++ [name])).isSome = true) :
    t.walk here (ns ++ [name]) = .ok (l ++ [name]) := by
  have hlength := Nat.not_lt.mpr hname.byteLength_le
  rw [walk_append, hwalk]
  simp [Except.bind, walk, hl, hname.ne_empty, hname.ne_here, hname.ne_parent, hlength, hmember]

/-- What is not found would be a member of a directory that is there. -/
theorem walk_single_notFound (h : t.walk here [name] = .error .notFound) :
    t.node? here = some .directory ∧ name ≠ "" ∧ name ≠ "." ∧ name ≠ ".." ∧
      Text.byteLength name.toList ≤ maxNameLength := by
  simp only [walk] at h
  split_ifs at h <;> grind

/-! ## The members of a directory -/

/-- The members of the directory at a location. -/
def members (t : FileTree) (l : Location) : List DirectoryEntry := t.nodes.filterMap (entryIn l)

theorem entryIn_eq_some {m : Location × FileNode} :
    entryIn l m = some e ↔ m.1 = l ++ [e.name] ∧ e.isDirectory = (m.2 == .directory) := by
  constructor
  · intro h
    unfold entryIn at h
    split at h
    · split at h
      · next heq =>
          obtain rfl := Option.some.inj h
          exact ⟨heq, rfl⟩
      · contradiction
    · contradiction
  · rintro ⟨hlocation, hdirectory⟩
    simp [entryIn, hlocation, ← hdirectory]

theorem list_eq_ok :
    t.list path = .ok entries ↔
      ∃ l, t.locate path = .ok l ∧ t.node? l = some .directory ∧ entries = t.members l := by
  unfold list
  cases t.locate path with
  | error e => simp
  | ok l =>
      cases hnode : t.node? l with
      | none => simp [hnode]
      | some n => cases n <;> simp [hnode, members, eq_comm]

namespace WellFormed

variable (ht : t.WellFormed)
include ht

/-- **No two members of a directory have one name.** -/
theorem names_nodup (l : Location) : ((t.members l).map (·.name)).Nodup := by
  have hdistinct := ht.distinct
  rw [List.nodup_iff_pairwise_ne, List.pairwise_map] at hdistinct ⊢
  apply List.pairwise_filterMap.mpr
  refine hdistinct.imp ?_
  intro m m' hne e he e' he' hname
  apply hne
  rw [(entryIn_eq_some.mp he).1, (entryIn_eq_some.mp he').1, hname]

theorem isFileName (h : e ∈ t.members l) : IsFileName e.name := by
  obtain ⟨m, hm, hentry⟩ := List.mem_filterMap.mp h
  refine ht.named m hm e.name ?_
  rw [(entryIn_eq_some.mp hentry).1]
  simp

theorem isFileName_of_node? (h : t.node? l = some n) : ∀ name ∈ l, IsFileName name := by
  unfold node? at h
  split at h
  · next hempty => simp [List.isEmpty_iff.mp hempty]
  · obtain ⟨before, after, hnodes, -⟩ := List.lookup_eq_some_iff.mp h
    exact ht.named (l, n) (by simp [hnodes])

/-- A member stands where its name leads. -/
theorem node?_of_mem_members (h : e ∈ t.members l) :
    ∃ n, t.node? (l ++ [e.name]) = some n ∧ e.isDirectory = (n == .directory) := by
  obtain ⟨⟨loc, n⟩, hm, hentry⟩ := List.mem_filterMap.mp h
  obtain ⟨rfl, hdir⟩ := entryIn_eq_some.mp hentry
  refine ⟨n, ?_, hdir⟩
  obtain ⟨before, after, hnodes⟩ := List.append_of_mem hm
  -- As the location is listed once, no node is found before this one.
  have hfirst : ∀ p ∈ before, ((l ++ [e.name]) != p.1) = true := by
    have hdistinct := ht.distinct
    rw [hnodes, List.map_append, List.map_cons, List.nodup_append] at hdistinct
    intro p hp
    rw [bne_iff_ne]
    exact (hdistinct.2.2 p.1 (List.mem_map_of_mem hp) _ List.mem_cons_self).symm
  have hne : (l ++ [e.name]).isEmpty = false := by simp
  rw [node?, hne]
  exact List.lookup_eq_some_iff.mpr ⟨before, after, hnodes, hfirst⟩

end WellFormed

/-! ## Paths of members -/

theorem locate_eq_ok :
    t.locate path = .ok l ↔
      '\x00' ∉ path.toList ∧ path ≠ "" ∧ t.walk (t.startOf path) (Path.names path) = .ok l := by
  unfold locate
  split_ifs <;> simp_all

theorem startOf_append (hpath : path ≠ "") (rest : String) :
    t.startOf (path ++ rest) = t.startOf path := by
  rw [startOf, startOf, Path.isAbsolute_append hpath]

/-- A separator at the end of the path of a directory leads nowhere else. -/
theorem locate_append_separator (hpath : t.locate path = .ok l) (hl : t.node? l = some .directory) :
    t.locate (path ++ String.singleton Path.separator) = .ok l := by
  obtain ⟨hnull, hne, hwalk⟩ := locate_eq_ok.mp hpath
  refine locate_eq_ok.mpr ⟨by simp [hnull, Path.separator], by simp, ?_⟩
  rw [startOf_append hne, Path.names_append_separator]
  exact walk_append_empty.mpr ⟨hwalk, hl⟩

/-- **The path of a directory joined with the name of a member leads to the member.** -/
theorem locate_join (hpath : t.locate path = .ok l) (hl : t.node? l = some .directory)
    (hname : IsFileName name) (hmember : (t.node? (l ++ [name])).isSome = true) :
    t.locate (Path.join path name) = .ok (l ++ [name]) := by
  obtain ⟨hnull, hne, hwalk⟩ := locate_eq_ok.mp hpath
  have hnames := Path.names_of_separator_notMem hname.separator_notMem
  rw [Path.join_name hne hname.separator_notMem]
  split
  · next hends =>
      -- The path has an empty last name, and the member's name stands in its place.
      obtain ⟨front, rfl⟩ := Path.exists_eq_append_separator hends
      rw [Path.names_append_separator] at hwalk
      have hfront := (walk_append_empty.mp hwalk).1
      refine locate_eq_ok.mpr ⟨by simpa [hname.null_notMem] using hnull, by simp, ?_⟩
      rw [startOf_append hne, Path.names_append, hnames]
      exact walk_append_member hfront hl hname hmember
  · refine locate_eq_ok.mpr ⟨by simpa [hname.null_notMem, Path.separator] using hnull, by simp, ?_⟩
    rw [String.append_assoc, startOf_append hne, ← String.append_assoc, Path.names_append, hnames]
    exact walk_append_member hwalk hl hname hmember

/-- A member that is a directory can be listed, with a separator behind its path as without. -/
theorem WellFormed.list_join (ht : t.WellFormed) (hlist : t.list path = .ok entries)
    (he : e ∈ entries) (hdirectory : e.isDirectory = true) :
    ∃ inner, t.list (Path.join path e.name) = .ok inner ∧
      t.list (Path.join path e.name ++ String.singleton Path.separator) = .ok inner := by
  obtain ⟨l, hpath, hl, rfl⟩ := list_eq_ok.mp hlist
  obtain ⟨n, hnode, hkind⟩ := ht.node?_of_mem_members he
  obtain rfl : n = .directory := by
    rw [hdirectory] at hkind
    exact eq_of_beq hkind.symm
  have hmember : t.locate (Path.join path e.name) = .ok (l ++ [e.name]) := by
    apply locate_join hpath hl (ht.isFileName he)
    rw [hnode]
    rfl
  exact ⟨t.members (l ++ [e.name]), list_eq_ok.mpr ⟨_, hmember, hnode, rfl⟩,
    list_eq_ok.mpr ⟨_, locate_append_separator hmember hnode, hnode, rfl⟩⟩

/-! ## Changes -/

/-- The way to a working directory is well-formed. -/
theorem wellFormed_atDirectory (hl : ∀ name ∈ l, IsFileName name) : (atDirectory l).WellFormed where
  distinct := by
    simp only [atDirectory, List.map_map]
    refine List.Nodup.map_on ?_ List.nodup_range
    intro i hi j hj heq
    have hlength := congrArg List.length heq
    simp only [Function.comp_apply, List.length_take] at hlength
    rw [List.mem_range] at hi hj
    omega
  named := by
    intro m hm
    obtain ⟨i, -, rfl⟩ := List.mem_map.mp hm
    exact fun name hname => hl name (List.mem_of_mem_take hname)

namespace WellFormed

/-- What is put at a location takes the place of what is there. -/
theorem put (ht : t.WellFormed) (hl : ∀ name ∈ l, IsFileName name) (n : FileNode) :
    (t.put l n).WellFormed where
  distinct := by
    have hrest : ((t.nodes.filter (·.1 != l)).map (·.1)).Nodup :=
      ht.distinct.sublist (List.filter_sublist.map _)
    simp only [FileTree.put, List.map_append, List.map_cons, List.map_nil]
    refine List.nodup_append.mpr ⟨hrest, List.nodup_singleton l, ?_⟩
    intro l' hl' l'' hl''
    obtain ⟨m, hm, rfl⟩ := List.mem_map.mp hl'
    rw [List.mem_singleton.mp hl'']
    simpa using (List.mem_filter.mp hm).2
  named := by
    intro m hm
    rcases List.mem_append.mp hm with hm | hm
    · exact ht.named m (List.mem_filter.mp hm).1
    · rw [List.mem_singleton.mp hm]
      exact hl

theorem plantFrom (ht : t.WellFormed) (hhere : ∀ name ∈ here, IsFileName name)
    (hns : ∀ name ∈ ns, name = "" ∨ name = "." ∨ name = ".." ∨ IsFileName name) :
    (FileTree.plantFrom n t here ns).WellFormed := by
  induction ns generalizing t here with
  | nil =>
      rw [FileTree.plantFrom]
      split
      · exact ht
      · exact ht.put hhere n
  | cons name ns ih =>
      obtain ⟨hname, hns⟩ := List.forall_mem_cons.mp hns
      rw [FileTree.plantFrom]
      split_ifs with hstay hup
      · exact ih ht hhere hns
      · exact ih ht (fun name hname => hhere name ((List.dropLast_sublist here).subset hname)) hns
      · have hnext : ∀ name' ∈ here ++ [name], IsFileName name' := by
          have hfile : IsFileName name := by grind
          simpa [or_imp, forall_and, hfile] using hhere
        refine ih ?_ hnext hns
        split
        · exact ht
        · exact ht.put hnext .directory

/-- A node that is planted where a path of legal names leads. -/
theorem plant (ht : t.WellFormed) (hstart : ∀ name ∈ t.workingDirectory, IsFileName name)
    (hpath : ∀ name ∈ Path.names path, name = "" ∨ name = "." ∨ name = ".." ∨ IsFileName name) :
    (t.plant path n).WellFormed := by
  refine ht.plantFrom ?_ hpath
  unfold startOf
  split
  · simp
  · exact hstart

end WellFormed

/-- A new location is in a directory that is there, under the name of a file. -/
theorem WellFormed.isFileName_of_vacancy (ht : t.WellFormed)
    (hns : ∀ name ∈ ns, Path.IsName name)
    (h : t.vacancy start ns = .ok l) : ∀ name ∈ l, IsFileName name := by
  rcases List.eq_nil_or_concat ns with rfl | ⟨outer, name, rfl⟩
  · contradiction
  · rw [List.concat_eq_append] at hns h
    obtain ⟨hseparator, hnull⟩ := hns name (by simp)
    simp only [vacancy, List.getLast?_concat, List.dropLast_concat, walk_append] at h
    cases houter : t.walk start outer with
    | error e => cases e <;> simp [houter, Except.bind, Except.map] at h
    | ok l' =>
        rw [houter] at h
        have hlast : t.walk l' [name] = .error .notFound := by
          revert h
          simp only [Except.bind]
          cases t.walk l' [name] with
          | ok l => simp
          | error e => cases e <;> simp
        obtain ⟨hdirectory, hempty, hhere, hparent, hlength⟩ := walk_single_notFound hlast
        obtain rfl : l' ++ [name] = l := by
          simpa [Except.bind, Except.map, hlast] using h
        have hname : IsFileName name := ⟨hempty, hhere, hparent, hseparator, hnull, hlength⟩
        simpa [or_imp, forall_and, hname] using ht.isFileName_of_node? hdirectory

theorem WellFormed.put_of_vacancy (ht : t.WellFormed)
    (hns : ∀ name ∈ ns, Path.IsName name)
    (h : t.vacancy start ns = .ok l) (n : FileNode) : (t.put l n).WellFormed :=
  ht.put (ht.isFileName_of_vacancy hns h) n

/-- Directories are made from the outermost on, each in a well-formed tree. -/
theorem WellFormed.makeDirectories (ht : t.WellFormed)
    (hns : ∀ name ∈ ns, Path.IsName name)
    (h : t.makeDirectories start ns = .ok t') : t'.WellFormed := by
  induction ns generalizing t' with
  | nil =>
      obtain rfl : t = t' := Except.ok.inj h
      exact ht
  | cons last outer ih =>
      have hreversed : ∀ name ∈ (last :: outer).reverse, Path.IsName name := by
        simpa only [List.mem_reverse] using hns
      have hput {u : FileTree} {l : Location} (hu : u.WellFormed)
          (hvacancy : u.vacancy start (last :: outer).reverse = .ok l) :
          (u.put l .directory).WellFormed :=
        hu.put_of_vacancy hreversed hvacancy .directory
      rw [FileTree.makeDirectories] at h
      split at h
      · next l hvacancy =>
          obtain rfl := Except.ok.inj h
          exact hput ht hvacancy
      · split at h
        · contradiction
        · next u houter =>
            have hu := ih (List.forall_mem_cons.mp hns).2 houter
            split at h
            · next l hvacancy =>
                obtain rfl := Except.ok.inj h
                exact hput hu hvacancy
            · split at h
              · obtain rfl := Except.ok.inj h
                exact hu
              · contradiction
      · split at h
        · obtain rfl := Except.ok.inj h
          exact ht
        · contradiction

/-- **A tree stays well-formed when a file is written.** -/
theorem WellFormed.write (ht : t.WellFormed) (h : t.write path text = .ok t') : t'.WellFormed := by
  unfold FileTree.write at h
  split at h
  · split at h
    · next l _ _ hnode =>
        obtain rfl := Except.ok.inj h
        exact ht.put (ht.isFileName_of_node? hnode) (.file text)
    · contradiction
  · next hlocate =>
      have hnull : '\x00' ∉ path.toList := by
        intro hin
        simp [locate, hin] at hlocate
      simp only at h
      split at h
      · contradiction
      · next l hvacancy =>
          split at h
          · next htrimmed =>
              obtain rfl := Except.ok.inj h
              rw [htrimmed] at hvacancy
              exact ht.put_of_vacancy (fun _ => Path.isName_of_mem_names hnull) hvacancy (.file text)
          · contradiction
  · contradiction

/-- **A tree stays well-formed when a file is saved with the directories on the way to it.** -/
theorem WellFormed.save (ht : t.WellFormed) (h : t.save path text = .ok t') : t'.WellFormed := by
  unfold FileTree.save at h
  split at h
  · contradiction
  · next hnull =>
      split at h
      · contradiction
      · next u hdirectories =>
          have hnames : ∀ name ∈ (Path.properNames path).dropLast.reverse, Path.IsName name := by
            intro name hname
            have hproper := (List.dropLast_sublist _).subset (List.mem_reverse.mp hname)
            exact Path.isName_of_mem_names (by simpa using hnull) (List.mem_filter.mp hproper).1
          exact (ht.makeDirectories hnames hdirectories).write h

end FileTree

end TabCompletion
