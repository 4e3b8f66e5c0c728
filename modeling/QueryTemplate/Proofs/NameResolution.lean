import Mathlib.Data.List.Basic
import QueryTemplate.Proofs.Paths

/-!
Where a template name can lead to. A name is checked before any path is made of it, and the paths are
made of it by putting a directory in front and perhaps an extension behind. Main statement:
`resolve_within`. Names that are refused are refused without a look at the files; whatever else is
looked at, or found, lies below one of the directories, read component by component.

`resolveAsking` is resolution with the file system as somebody to ask, so that one can say which
paths were looked at.
-/

namespace QueryTemplate

/-- A name that may be resolved: it is relative and never steps upwards. -/
structure IsTemplateName (name : String) : Prop where
  ne_empty : name ≠ ""
  relative : name.toList.head? ≠ some '/'
  no_parent : ".." ∉ FileTree.components name

namespace FileTree

/-- How many levels below its start a path ends that is read component by component, from a place
that many levels below the start. There is no level once the path has stepped above its start. -/
def level? : Nat → List String → Option Nat
  | level, [] => some level
  | level, name :: rest =>
    if name = "" || name = "." then level? level rest
    else if name = ".." then
      match level with
      | 0 => none
      | level + 1 => level? level rest
    else level? (level + 1) rest

theorem level?_isSome_of_not_mem {names : List String} (h : ".." ∉ names) (level : Nat) :
    (level? level names).isSome = true := by
  induction names generalizing level with
  | nil => rfl
  | cons name names ih =>
      obtain ⟨hname, hnames⟩ : name ≠ ".." ∧ ".." ∉ names := by
        simpa [eq_comm] using h
      rw [level?.eq_def]
      simp only [hname, if_false]
      split
      · exact ih hnames level
      · exact ih hnames (level + 1)

/-- A path that leads into a directory: what is put behind the directory stays there when it is read
component by component, and leads to what the directory holds. -/
structure IsBelow (tree : FileTree) (dir file path : String) : Prop where
  eq_joinPath : path = joinPath dir file
  split_path : components path = directoryComponents dir ++ components file
  never_above : (level? 0 (components file)).isSome = true
  leads : ∀ node, tree.find? dir = some node →
    tree.find? path = node.descend (components file)

end FileTree

theorem IsTemplateName.isBelow {file : String} (h : IsTemplateName file) (tree : FileTree)
    (dir : String) : tree.IsBelow dir file (joinPath dir file) where
  eq_joinPath := rfl
  split_path := FileTree.components_joinPath h.relative dir
  never_above := FileTree.level?_isSome_of_not_mem h.no_parent 0
  leads := by
    intro node hnode
    have hdir : dir ≠ "" := by
      rintro rfl
      simp [FileTree.find?] at hnode
    rw [FileTree.find?_joinPath hdir h.relative h.no_parent, hnode]
    rfl

namespace SearchPath

variable {s : SearchPath} {tree : FileTree} {name : String}

/-! ### Names -/

/-- The faults of a name, in the order in which they are looked for. -/
theorem nameFault?_eq (name : String) :
    nameFault? name =
      if name = "" then some "name is empty"
      else if name.toList.head? = some '/' then some "name must be relative"
      else if ".." ∈ FileTree.components name then some "`..` is not allowed"
      else none := by
  rw [nameFault?]
  split
  · rename_i hname
    rw [if_pos (String.toList_eq_nil_iff.mp hname)]
  · rename_i rest hname
    have hempty : name ≠ "" := by
      rintro rfl
      simp at hname
    rw [if_neg hempty, if_pos (by rw [hname]; rfl)]
  · rename_i hnil hslash
    have hempty : name ≠ "" := fun h => hnil (by rw [h]; rfl)
    have hhead : name.toList.head? ≠ some '/' := by
      intro h
      obtain ⟨rest, hrest⟩ := List.head?_eq_some_iff.mp h
      exact hslash rest hrest
    rw [if_neg hempty, if_neg hhead]
    simp only [List.contains_iff_mem]

theorem nameFault?_eq_none_iff : nameFault? name = none ↔ IsTemplateName name := by
  rw [nameFault?_eq]
  constructor
  · intro h
    split at h
    · cases h
    · split at h
      · cases h
      · split at h
        · cases h
        · exact ⟨‹_›, ‹_›, ‹_›⟩
  · intro h
    rw [if_neg h.ne_empty, if_neg h.relative, if_neg h.no_parent]

theorem not_isTemplateName_iff :
    ¬ IsTemplateName name ↔
      name = "" ∨ name.toList.head? = some '/' ∨ ".." ∈ FileTree.components name := by
  constructor
  · intro h
    by_contra hnone
    simp only [not_or] at hnone
    exact h ⟨hnone.1, hnone.2.1, hnone.2.2⟩
  · rintro (h | h | h) hname
    · exact hname.ne_empty h
    · exact hname.relative h
    · exact hname.no_parent h

theorem exists_mem_extensions_of_mem_candidates {file : String} (h : file ∈ candidates name) :
    ∃ extension ∈ "" :: templateExtensions, file = name ++ extension := by
  rcases List.mem_cons.mp h with rfl | h
  · exact ⟨"", List.mem_cons_self, String.append_empty.symm⟩
  · obtain ⟨extension, hextension, rfl⟩ := List.mem_map.mp h
    exact ⟨extension, List.mem_cons_of_mem _ hextension, rfl⟩

theorem mem_candidates {extension : String} (h : extension ∈ "" :: templateExtensions) :
    name ++ extension ∈ candidates name := by
  rcases List.mem_cons.mp h with rfl | h
  · rw [String.append_empty]
    exact List.mem_cons_self
  · exact List.mem_cons_of_mem _ (List.mem_map_of_mem h)

theorem not_mem_extension {extension : String} (h : extension ∈ "" :: templateExtensions) :
    '/' ∉ extension.toList := by
  revert extension
  decide

/-- An extension is longer than `..`, so putting it behind a name makes no component `..`. -/
theorem isTemplateName_append (h : IsTemplateName name) {extension : String}
    (hextension : extension ∈ "" :: templateExtensions) : IsTemplateName (name ++ extension) := by
  obtain ⟨c, rest, hname⟩ := List.exists_cons_of_ne_nil
    (show name.toList ≠ [] from fun h' => h.ne_empty (String.toList_eq_nil_iff.mp h'))
  refine ⟨fun hempty => ?_, ?_, ?_⟩
  · simpa [hname] using congrArg String.toList hempty
  · simpa [hname] using h.relative
  · obtain ⟨front, last, hcomponents, happend⟩ :=
      FileTree.components_append (not_mem_extension hextension) name
    obtain ⟨hfront, hlast⟩ : ".." ∉ front ∧ last ≠ ".." := by
      simpa [hcomponents, eq_comm] using h.no_parent
    -- Only the last component changes, and what it becomes is three characters long at least.
    have hglued : last ++ extension ≠ ".." := by
      rcases List.mem_cons.mp hextension with rfl | hextension
      · rwa [String.append_empty]
      · intro hparent
        have hlength : ∀ extension ∈ templateExtensions, 3 ≤ extension.length := by decide
        have := hlength extension hextension
        have htwo := congrArg String.length hparent
        rw [String.length_append, show "..".length = 2 from rfl] at htwo
        omega
    rw [happend]
    simpa using ⟨hfront, hglued.symm⟩

/-! ### Paths -/

/-- The paths that may hold the file of a name, in the order in which they are looked at. -/
def candidatePaths (s : SearchPath) (name : String) : List String :=
  s.dirs.flatMap fun dir => (candidates name).map (joinPath dir)

theorem mem_candidatePaths {path : String} :
    path ∈ s.candidatePaths name ↔
      ∃ dir ∈ s.dirs, ∃ extension ∈ "" :: templateExtensions,
        path = joinPath dir (name ++ extension) := by
  simp only [candidatePaths, List.mem_flatMap, List.mem_map]
  constructor
  · rintro ⟨dir, hdir, file, hfile, rfl⟩
    obtain ⟨extension, hextension, rfl⟩ := exists_mem_extensions_of_mem_candidates hfile
    exact ⟨dir, hdir, extension, hextension, rfl⟩
  · rintro ⟨dir, hdir, extension, hextension, rfl⟩
    exact ⟨dir, hdir, _, mem_candidates hextension, rfl⟩

/-- A name that may be resolved gets the first of its paths that is a file. -/
theorem resolve_of_isTemplateName (h : IsTemplateName name) :
    s.resolve tree name = .ok ((s.candidatePaths name).find? tree.isFileAt) := by
  rw [resolve, nameFault?_eq_none_iff.mpr h, candidatePaths, List.find?_flatMap]
  rfl

/-- Any other name is refused, whatever the directories and the files are. -/
theorem resolve_of_not_isTemplateName (h : ¬ IsTemplateName name) :
    ∃ reason, ∀ (s : SearchPath) (tree : FileTree),
      nameFault? name = some reason ∧ s.resolve tree name = .error (.invalidName name reason) := by
  cases hfault : nameFault? name with
  | none => exact absurd (nameFault?_eq_none_iff.mp hfault) h
  | some reason => exact ⟨reason, fun s tree => ⟨rfl, by rw [resolve, hfault]⟩⟩

theorem exists_isBelow_of_mem_candidatePaths (h : IsTemplateName name) (tree : FileTree)
    {path : String} (hpath : path ∈ s.candidatePaths name) :
    ∃ dir ∈ s.dirs, ∃ extension ∈ "" :: templateExtensions,
      tree.IsBelow dir (name ++ extension) path := by
  obtain ⟨dir, hdir, extension, hextension, rfl⟩ := mem_candidatePaths.mp hpath
  exact ⟨dir, hdir, extension, hextension,
    (isTemplateName_append h hextension).isBelow tree dir⟩

/-! ### What is looked at -/

/-- Resolution as a program that asks which paths are those of files. -/
def resolveAsking {m : Type → Type} [Monad m] (isFile : String → m Bool) (s : SearchPath)
    (name : String) : m (Except LoadError (Option String)) :=
  match nameFault? name with
  | some reason => pure (.error (.invalidName name reason))
  | none => do
    let found ← (s.candidatePaths name).findM? isFile
    pure (.ok found)

/-- Tells whether a path is that of a file, and adds it to the paths that were looked at. -/
def lookAt (tree : FileTree) (path : String) : StateM (List String) Bool :=
  fun looked => (tree.isFileAt path, looked ++ [path])

/-- Asking path by path finds the first file, and looks at no path that is not in the list. -/
theorem run_findM?_lookAt (tree : FileTree) (paths looked : List String) :
    ∃ more, (paths.findM? (lookAt tree)).run looked = (paths.find? tree.isFileAt, looked ++ more) ∧
      (∀ path ∈ more, path ∈ paths) ∧
      ∀ path, paths.find? tree.isFileAt = some path → path ∈ more := by
  induction paths generalizing looked with
  | nil => exact ⟨[], by rw [List.append_nil]; rfl, by simp, by simp⟩
  | cons path paths ih =>
      have hstep : ((path :: paths).findM? (lookAt tree)).run looked =
          (match tree.isFileAt path with
            | true => pure (some path)
            | false => paths.findM? (lookAt tree)).run (looked ++ [path]) := by
        rw [List.findM?]
        rfl
      rw [hstep]
      cases hfile : tree.isFileAt path with
      | true =>
          refine ⟨[path], ?_, by simp, by simp [List.find?, hfile]⟩
          rw [List.find?, hfile]
          rfl
      | false =>
          obtain ⟨more, hrun, hmore, hfound⟩ := ih (looked ++ [path])
          refine ⟨path :: more, ?_, ?_, ?_⟩
          · rw [List.find?, hfile]
            simpa using hrun
          · intro other hother
            rcases List.mem_cons.mp hother with rfl | hother
            · exact List.mem_cons_self
            · exact List.mem_cons_of_mem _ (hmore other hother)
          · intro found hfind
            rw [List.find?, hfile] at hfind
            exact List.mem_cons_of_mem _ (hfound found hfind)

theorem run_resolveAsking (s : SearchPath) (tree : FileTree) (name : String) :
    ∃ looked, (s.resolveAsking (lookAt tree) name).run [] = (s.resolve tree name, looked) ∧
      (¬ IsTemplateName name → looked = []) ∧
      (∀ path ∈ looked, path ∈ s.candidatePaths name) ∧
      ∀ path, s.resolve tree name = .ok (some path) → path ∈ looked := by
  by_cases hname : IsTemplateName name
  · obtain ⟨looked, hrun, hlooked, hfound⟩ := run_findM?_lookAt tree (s.candidatePaths name) []
    refine ⟨looked, ?_, fun h => absurd hname h, hlooked, ?_⟩
    · rw [resolveAsking, nameFault?_eq_none_iff.mpr hname, resolve_of_isTemplateName hname]
      simp only [StateT.run_bind, hrun]
      rfl
    · intro path hpath
      rw [resolve_of_isTemplateName hname] at hpath
      exact hfound path (by simpa using hpath)
  · obtain ⟨reason, hreason⟩ := resolve_of_not_isTemplateName hname
    obtain ⟨hfault, hresolve⟩ := hreason s tree
    refine ⟨[], ?_, fun _ => rfl, by simp, by simp [hresolve]⟩
    rw [resolveAsking, hfault, hresolve]
    rfl

/-! ### Containment -/

/-- Names are refused exactly if they are empty, absolute or have a component `..`, and then no path
is looked at. Whatever is looked at for a name, and so whatever is found, is made of one of the
directories, the name and at most one extension, and does not step above the directory. -/
theorem resolve_within (s : SearchPath) (tree : FileTree) (name : String) :
    ((∃ reason, s.resolve tree name = .error (.invalidName name reason)) ↔
      name = "" ∨ name.toList.head? = some '/' ∨ ".." ∈ FileTree.components name) ∧
    (∀ e, s.resolve tree name = .error e → ∃ reason, e = .invalidName name reason) ∧
    (∃ looked, (s.resolveAsking (lookAt tree) name).run [] = (s.resolve tree name, looked) ∧
      ((name = "" ∨ name.toList.head? = some '/' ∨ ".." ∈ FileTree.components name) →
        looked = []) ∧
      (∀ path ∈ looked, ∃ dir ∈ s.dirs, ∃ extension ∈ "" :: templateExtensions,
        tree.IsBelow dir (name ++ extension) path) ∧
      ∀ path, s.resolve tree name = .ok (some path) →
        path ∈ looked ∧ tree.isFileAt path = true) := by
  obtain ⟨looked, hrun, hrefused, hlooked, hfound⟩ := run_resolveAsking s tree name
  simp only [← not_isTemplateName_iff]
  -- The form of a name alone decides whether any path is looked at.
  by_cases hname : IsTemplateName name
  · have hresolve : s.resolve tree name = _ := resolve_of_isTemplateName hname
    refine ⟨⟨?_, fun h => absurd hname h⟩, ?_, looked, hrun, hrefused, ?_, ?_⟩
    · rintro ⟨reason, hreason⟩
      simp [hresolve] at hreason
    · intro e he
      simp [hresolve] at he
    · intro path hpath
      exact exists_isBelow_of_mem_candidatePaths hname tree (hlooked path hpath)
    · intro path hpath
      refine ⟨hfound path hpath, ?_⟩
      rw [hresolve] at hpath
      exact List.find?_some (Except.ok.inj hpath)
  · obtain ⟨reason, hreason⟩ := resolve_of_not_isTemplateName hname
    obtain ⟨-, hresolve⟩ := hreason s tree
    refine ⟨⟨fun _ => hname, fun _ => ⟨reason, hresolve⟩⟩, ?_, looked, hrun, hrefused, ?_, ?_⟩
    · intro e he
      rw [hresolve] at he
      exact ⟨reason, (Except.error.inj he).symm⟩
    · intro path hpath
      simp [hrefused hname] at hpath
    · intro path hpath
      simp [hresolve] at hpath

end SearchPath

end QueryTemplate
