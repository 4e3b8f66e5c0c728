import Mathlib.Data.Prod.Lex
import Mathlib.Order.Bounds.Basic
import QueryTemplate.Proofs.NameResolution

/-!
Which of several files a name is resolved to. A candidate has a place: the number of its directory,
and in the directory the rank of its name, 0 for the name itself and k for the k-th extension.
`resolve_isLeast` says that resolution takes the file of the least place, directories before ranks.
From there a name that is found once is found in the same place however many directories follow, and
of those that follow the first one counts that holds a candidate.
-/

namespace QueryTemplate

/-- A search through a list stops at the first element that has an answer. -/
theorem findSome?_eq_some_iff_getElem? {α β : Type} {f : α → Option β} {l : List α} {b : β} :
    l.findSome? f = some b ↔
      ∃ (i : Nat) (a : α), l[i]? = some a ∧ f a = some b ∧
        ∀ j < i, ∀ a', l[j]? = some a' → f a' = none := by
  rw [List.findSome?_eq_some_iff]
  constructor
  · rintro ⟨before, a, after, rfl, ha, hbefore⟩
    refine ⟨before.length, a, by simp, ha, fun j hj a' ha' => hbefore a' ?_⟩
    rw [List.getElem?_append_left hj] at ha'
    exact List.mem_of_getElem? ha'
  · rintro ⟨i, a, hget, ha, hearlier⟩
    obtain ⟨hi, rfl⟩ := List.getElem?_eq_some_iff.mp hget
    refine ⟨l.take i, l[i], l.drop (i + 1), by simp, ha, fun a' ha' => ?_⟩
    obtain ⟨j, hj, rfl⟩ := List.mem_take_iff_getElem.mp ha'
    exact hearlier j (by omega) _ (List.getElem?_eq_getElem _)

namespace SearchPath

variable {s : SearchPath} {tree : FileTree} {name path : String}

/-- The candidate in a place, given by directory and rank. -/
def candidate? (s : SearchPath) (name : String) (place : Nat × Nat) : Option String :=
  s.dirs[place.1]?.bind fun dir => (candidates name)[place.2]?.map (joinPath dir)

/-- The places in which there is a file, ordered by the directory first. -/
def filePlaces (s : SearchPath) (tree : FileTree) (name : String) : Set (Nat ×ₗ Nat) :=
  {place | ∃ path, s.candidate? name (ofLex place) = some path ∧ tree.isFileAt path = true}

theorem resolveIn_eq_findSome? (tree : FileTree) (name dir : String) :
    resolveIn tree name dir =
      (candidates name).findSome? fun file => Option.guard tree.isFileAt (joinPath dir file) := by
  rw [resolveIn, List.find?_eq_findSome?_guard, List.findSome?_map]
  rfl

theorem resolveIn_eq_none {dir file : String} (h : resolveIn tree name dir = none)
    (hfile : file ∈ candidates name) : tree.isFileAt (joinPath dir file) = false := by
  rw [resolveIn, List.find?_eq_none] at h
  simpa using h _ (List.mem_map_of_mem hfile)

/-- The search through the directories, and through the candidates in each, ends at the file of the
least place. -/
theorem exists_isLeast_of_findSome? (h : s.dirs.findSome? (resolveIn tree name) = some path) :
    ∃ place, s.candidate? name place = some path ∧
      IsLeast (s.filePlaces tree name) (toLex place) := by
  obtain ⟨index, dir, hdir, hin, hindex⟩ := findSome?_eq_some_iff_getElem?.mp h
  rw [resolveIn_eq_findSome?] at hin
  obtain ⟨rank, file, hfile, hguard, hrank⟩ := findSome?_eq_some_iff_getElem?.mp hin
  obtain ⟨rfl, hisFile⟩ := Option.guard_eq_some_iff.mp hguard
  have hcandidate : s.candidate? name (index, rank) = some (joinPath dir file) := by
    simp [candidate?, hdir, hfile]
  refine ⟨(index, rank), hcandidate, ⟨_, hcandidate, hisFile⟩, ?_⟩
  rintro place ⟨path', hplace, hpath'⟩
  obtain ⟨dir', hdir', hsome⟩ := Option.bind_eq_some_iff.mp hplace
  obtain ⟨file', hfile', rfl⟩ := Option.map_eq_some_iff.mp hsome
  rw [← toLex_ofLex place, Prod.Lex.toLex_le_toLex]
  rcases Nat.lt_trichotomy (ofLex place).1 index with hlt | heq | hgt
  · -- A directory in front of the one that was taken has no file for the name.
    have hnone := resolveIn_eq_none (hindex _ hlt dir' hdir') (List.mem_of_getElem? hfile')
    simp [hnone] at hpath'
  · -- In the same directory the candidates are tried by rank.
    refine .inr ⟨heq.symm, ?_⟩
    obtain rfl : dir' = dir := by
      rw [heq, hdir] at hdir'
      exact (Option.some.inj hdir').symm
    by_contra hlower
    have hnone := hrank _ (Nat.lt_of_not_le hlower) file' hfile'
    simp [hpath'] at hnone
  · exact .inl hgt

theorem resolve_eq_ok_iff (h : IsTemplateName name) {found : Option String} :
    s.resolve tree name = .ok found ↔ s.dirs.findSome? (resolveIn tree name) = found := by
  rw [resolve, nameFault?_eq_none_iff.mpr h]
  exact ⟨Except.ok.inj, congrArg Except.ok⟩

theorem filePlaces_eq_empty (h : s.dirs.findSome? (resolveIn tree name) = none) :
    s.filePlaces tree name = ∅ := by
  rw [Set.eq_empty_iff_forall_notMem]
  rintro place ⟨path, hplace, hpath⟩
  obtain ⟨dir, hdir, hsome⟩ := Option.bind_eq_some_iff.mp hplace
  obtain ⟨file, hfile, rfl⟩ := Option.map_eq_some_iff.mp hsome
  have hnone := List.findSome?_eq_none_iff.mp h dir (List.mem_of_getElem? hdir)
  simp [resolveIn_eq_none hnone (List.mem_of_getElem? hfile)] at hpath

theorem resolve_eq_some_iff (h : IsTemplateName name) :
    s.resolve tree name = .ok (some path) ↔
      ∃ place, s.candidate? name place = some path ∧
        IsLeast (s.filePlaces tree name) (toLex place) := by
  rw [resolve_eq_ok_iff h]
  refine ⟨exists_isLeast_of_findSome?, ?_⟩
  rintro ⟨place, hplace, hleast⟩
  cases hfound : s.dirs.findSome? (resolveIn tree name) with
  | none => exact absurd hleast.1 (by simp [filePlaces_eq_empty hfound])
  | some path' =>
      obtain ⟨place', hplace', hleast'⟩ := exists_isLeast_of_findSome? hfound
      obtain rfl : place = place' := toLex.injective (hleast.unique hleast')
      rw [← hplace', hplace]

theorem resolve_eq_none_iff (h : IsTemplateName name) :
    s.resolve tree name = .ok none ↔ s.filePlaces tree name = ∅ := by
  rw [resolve_eq_ok_iff h]
  refine ⟨filePlaces_eq_empty, fun hempty => ?_⟩
  cases hfound : s.dirs.findSome? (resolveIn tree name) with
  | none => rfl
  | some path =>
      obtain ⟨place, -, hleast⟩ := exists_isLeast_of_findSome? hfound
      exact absurd hleast.1 (by simp [hempty])

/-! ### More directories -/

/-- The search path after directories were added one after the other, each to the files that there
were at the time. One that is not there is not added, and the next ones are. -/
def addDirs (s : SearchPath) (calls : List (FileTree × String)) : SearchPath :=
  calls.foldl
    (fun s (tree, dir) =>
      match s.addDir tree dir with
      | .ok s => s
      | .error _ => s)
    s

/-- The directories among them that were there. -/
def added (calls : List (FileTree × String)) : List String :=
  (calls.filter fun (tree, dir) => tree.isDirectoryAt dir).map (·.2)

theorem dirs_addDirs (s : SearchPath) (calls : List (FileTree × String)) :
    (s.addDirs calls).dirs = s.dirs ++ added calls := by
  induction calls generalizing s with
  | nil => simp [addDirs, added]
  | cons call calls ih =>
      obtain ⟨tree, dir⟩ := call
      have hstep : s.addDirs ((tree, dir) :: calls) =
          (if tree.isDirectoryAt dir then ⟨s.dirs ++ [dir]⟩ else s : SearchPath).addDirs calls := by
        rw [addDirs, List.foldl_cons]
        simp only [addDir]
        cases tree.isDirectoryAt dir <;> rfl
      rw [hstep, ih, added, added]
      cases hdir : tree.isDirectoryAt dir <;> simp [hdir]

/-- A directory that has a file for the name. -/
def Holds (tree : FileTree) (name dir : String) : Prop :=
  ∃ file ∈ candidates name, tree.isFileAt (joinPath dir file) = true

theorem resolveIn_eq_none_iff {dir : String} :
    resolveIn tree name dir = none ↔ ¬ Holds tree name dir := by
  simp [resolveIn, Holds]

theorem exists_resolveIn_of_holds {dir : String} (h : Holds tree name dir) :
    ∃ file ∈ candidates name, resolveIn tree name dir = some (joinPath dir file) ∧
      tree.isFileAt (joinPath dir file) = true := by
  cases hfound : resolveIn tree name dir with
  | none => exact absurd h (resolveIn_eq_none_iff.mp hfound)
  | some path =>
      obtain ⟨file, hfile, rfl⟩ := List.mem_map.mp (List.mem_of_find?_eq_some hfound)
      exact ⟨file, hfile, rfl, List.find?_some hfound⟩

/-- What was found stays found in the same place. -/
theorem resolve_addDirs_of_some (h : IsTemplateName name)
    (hpath : s.resolve tree name = .ok (some path)) (calls : List (FileTree × String)) :
    (s.addDirs calls).resolve tree name = .ok (some path) := by
  rw [resolve_eq_ok_iff h] at hpath ⊢
  rw [dirs_addDirs, List.findSome?_append, hpath]
  rfl

/-- What was not found is looked for in the directories that were added. -/
theorem resolve_addDirs_of_none (h : IsTemplateName name) (hnone : s.resolve tree name = .ok none)
    (calls : List (FileTree × String)) :
    (s.addDirs calls).resolve tree name =
      .ok ((added calls).findSome? (resolveIn tree name)) := by
  rw [resolve_eq_ok_iff h] at hnone ⊢
  rw [dirs_addDirs, List.findSome?_append, hnone]
  rfl

/-! ### Directories with the name of a template -/

theorem isDirectoryAt_of_isFileAt (h : tree.isFileAt path = true) :
    tree.isDirectoryAt path = false := by
  rw [FileTree.isFileAt] at h
  rw [FileTree.isDirectoryAt]
  cases hfind : tree.find? path with
  | none => rfl
  | some node =>
      cases node with
      | file content => rfl
      | directory entries => simp [hfind, FileTree.isFile] at h

/-- A name is resolved to the file of the least place, directories before ranks. Adding directories
later, or failing to, changes nothing for a name that has a file; a name that has none gets one from
the first of them that holds a candidate. Directories that bear the name of a candidate are passed
over as if they were not there. -/
theorem resolve_isLeast (h : IsTemplateName name) (s : SearchPath) (tree : FileTree) :
    (∀ path, s.resolve tree name = .ok (some path) ↔
      ∃ place, s.candidate? name place = some path ∧
        IsLeast (s.filePlaces tree name) (toLex place)) ∧
    (s.resolve tree name = .ok none ↔ s.filePlaces tree name = ∅) ∧
    (∀ path calls, s.resolve tree name = .ok (some path) →
      (s.addDirs calls).resolve tree name = .ok (some path)) ∧
    (∀ calls, s.resolve tree name = .ok none →
      ((∀ dir ∈ added calls, ¬ Holds tree name dir) →
        (s.addDirs calls).resolve tree name = .ok none) ∧
      ∀ before dir after, added calls = before ++ dir :: after →
        (∀ earlier ∈ before, ¬ Holds tree name earlier) → Holds tree name dir →
          ∃ file ∈ candidates name,
            (s.addDirs calls).resolve tree name = .ok (some (joinPath dir file)) ∧
              tree.isFileAt (joinPath dir file) = true) ∧
    (∀ path, s.resolve tree name = .ok (some path) → tree.isDirectoryAt path = false) ∧
    (∀ before hidden after, s.candidatePaths name = before ++ hidden :: after →
      tree.isDirectoryAt hidden = true →
        s.resolve tree name = .ok ((before ++ after).find? tree.isFileAt)) := by
  refine ⟨fun path => resolve_eq_some_iff h, resolve_eq_none_iff h,
    fun path calls hpath => resolve_addDirs_of_some h hpath calls, ?_, ?_, ?_⟩
  · intro calls hnone
    rw [resolve_addDirs_of_none h hnone]
    constructor
    · intro hadded
      rw [List.findSome?_eq_none_iff.mpr fun dir hdir => resolveIn_eq_none_iff.mpr (hadded dir hdir)]
    · intro before dir after hadded hbefore hdir
      obtain ⟨file, hfile, hin, hisFile⟩ := exists_resolveIn_of_holds hdir
      refine ⟨file, hfile, ?_, hisFile⟩
      rw [List.findSome?_eq_some_iff.mpr ⟨before, dir, after, hadded, hin,
        fun earlier hearlier => resolveIn_eq_none_iff.mpr (hbefore earlier hearlier)⟩]
  · intro path hpath
    rw [resolve_of_isTemplateName h] at hpath
    exact isDirectoryAt_of_isFileAt (List.find?_some (Except.ok.inj hpath))
  · intro before hidden after hpaths hhidden
    have hfile : tree.isFileAt hidden = false := by
      cases hisFile : tree.isFileAt hidden with
      | false => rfl
      | true => simp [isDirectoryAt_of_isFileAt hisFile] at hhidden
    rw [resolve_of_isTemplateName h, hpaths, List.find?_append, List.find?_append,
      List.find?_cons_of_neg (by simp [hfile])]

/-- Directories with the names of templates stand in front of the files. -/
def crowdedFiles : FileTree :=
  .directory
    [("a", .directory
      [("q", .directory []), ("q.sql", .directory [("q", .file [])]), ("q.j2", .file [])]),
    ("b", .directory [("q.sql", .file []), ("p.jinja", .file [])])]

/-- `q` is the file with the fourth extension in the first directory, before and after the second
one is added, which is also looked through for `p`. -/
theorem resolve_isLeast_crowded :
    (IsTemplateName "q" ∧ IsTemplateName "p") ∧
    (∃ place, SearchPath.candidate? ⟨["a", "b"]⟩ "q" place = some "a/q.j2" ∧
      IsLeast (SearchPath.filePlaces ⟨["a", "b"]⟩ crowdedFiles "q") (toLex place)) ∧
    (SearchPath.addDirs ⟨["a"]⟩ [(crowdedFiles, "c"), (crowdedFiles, "b")]).resolve
      crowdedFiles "q" = .ok (some "a/q.j2") ∧
    ∃ file ∈ candidates "p",
      (SearchPath.addDirs ⟨["a"]⟩ [(crowdedFiles, "c"), (crowdedFiles, "b")]).resolve
        crowdedFiles "p" = .ok (some (joinPath "b" file)) ∧
      crowdedFiles.isFileAt (joinPath "b" file) = true := by
  have hq : IsTemplateName "q" := ⟨by decide, by decide, by decide⟩
  have hp : IsTemplateName "p" := ⟨by decide, by decide, by decide⟩
  refine ⟨⟨hq, hp⟩, ((resolve_isLeast hq ⟨["a", "b"]⟩ crowdedFiles).1 "a/q.j2").mp rfl,
    (resolve_isLeast hq ⟨["a"]⟩ crowdedFiles).2.2.1 "a/q.j2" _ rfl, ?_⟩
  exact ((resolve_isLeast hp ⟨["a"]⟩ crowdedFiles).2.2.2.1 _ rfl).2 [] "b" [] rfl (by simp)
    ⟨"p.jinja", by decide, rfl⟩

end SearchPath

end QueryTemplate
