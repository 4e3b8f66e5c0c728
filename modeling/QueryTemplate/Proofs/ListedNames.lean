import QueryTemplate.Proofs.NameResolution

/-!
Which listed names resolve. The list of names is made from the files, by taking the longest extension
off their paths; resolution goes the other way and puts extensions behind a name. `listed_resolve`
says where the two agree: a listed name resolves to a file unless its last component is `..`, which
is what is left of a file called `...sql`. Such a name is listed and refused.
-/

namespace QueryTemplate

variable {fileName name : String}

theorem dropEnding?_eq_some_iff {ending : String} :
    dropEnding? ending fileName = some name ↔ name ≠ "" ∧ fileName = name ++ ending := by
  have hdrop : ∀ rest, Text.dropHead? ending.toList.reverse fileName.toList.reverse = some rest ↔
      fileName = String.ofList rest.reverse ++ ending := by
    intro rest
    rw [Text.dropHead?_eq_some_iff, List.reverse_eq_iff, List.reverse_append, List.reverse_reverse,
      ← String.toList_inj, String.toList_append, String.toList_ofList]
  rw [dropEnding?]
  split
  · rename_i c rest hrest
    rw [(hdrop _).mp hrest, String.append_left_inj, Option.some.injEq]
    refine ⟨fun h => ⟨?_, h⟩, fun h => h.2⟩
    rw [← h]
    simp
  · rename_i hnone
    refine ⟨nofun, ?_⟩
    rintro ⟨hname, rfl⟩
    obtain ⟨c, rest, hcons⟩ := List.exists_cons_of_ne_nil
      (show name.toList.reverse ≠ [] by simpa using hname)
    exact absurd ((hdrop (c :: rest)).mpr (by rw [← hcons]; simp)) (hnone c rest)

theorem shorter_eq_or (name : String) (best : Option String) :
    shorter name best = name ∨ best = some (shorter name best) := by
  cases best with
  | none => exact .inl rfl
  | some other =>
      rw [shorter]
      split
      · exact .inr rfl
      · exact .inl rfl

theorem length_shorter_le (name : String) (best : Option String) :
    (shorter name best).length ≤ name.length ∧
      ∀ other, best = some other → (shorter name best).length ≤ other.length := by
  cases best with
  | none => exact ⟨Nat.le_refl _, nofun⟩
  | some other =>
      simp only [Option.some.injEq, forall_eq', shorter]
      split
      · exact ⟨by omega, Nat.le_refl _⟩
      · exact ⟨Nat.le_refl _, by omega⟩

/-- The search for the longest extension ends with the shortest of the names that it has met. -/
theorem foldl_shorter {endings : List String} {best : Option String}
    (h : endings.foldl
      (fun best ending =>
        match dropEnding? ending fileName with
        | some name => some (shorter name best)
        | none => best)
      best = some name) :
    (best = some name ∨ ∃ ending ∈ endings, dropEnding? ending fileName = some name) ∧
      (∀ other, best = some other → name.length ≤ other.length) ∧
      ∀ ending ∈ endings, ∀ other, dropEnding? ending fileName = some other →
        name.length ≤ other.length := by
  induction endings generalizing best with
  | nil =>
      obtain rfl : best = some name := h
      simp
  | cons ending endings ih =>
      rw [List.foldl_cons] at h
      obtain ⟨hfrom, hbest, hlater⟩ := ih h
      cases hdrop : dropEnding? ending fileName with
      | none =>
          simp only [hdrop] at hfrom hbest
          refine ⟨?_, hbest, ?_⟩
          · exact hfrom.imp_right fun ⟨e, he, hname⟩ => ⟨e, List.mem_cons_of_mem _ he, hname⟩
          · intro e he other hother
            rcases List.mem_cons.mp he with rfl | he
            · simp [hdrop] at hother
            · exact hlater e he other hother
      | some met =>
          simp only [hdrop, Option.some.injEq, forall_eq'] at hfrom hbest
          obtain ⟨hmet, hold⟩ := length_shorter_le met best
          -- From here on the search goes on with `shorter met best`, which is one of the two.
          refine ⟨?_, fun other hother => Nat.le_trans hbest (hold other hother), ?_⟩
          · rcases hfrom with rfl | ⟨e, he, hname⟩
            · rcases shorter_eq_or met best with h | h
              · exact .inr ⟨ending, List.mem_cons_self, by rw [hdrop, h]⟩
              · exact .inl h
            · exact .inr ⟨e, List.mem_cons_of_mem _ he, hname⟩
          · intro e he other hother
            rcases List.mem_cons.mp he with rfl | he
            · rw [hdrop] at hother
              cases hother
              exact Nat.le_trans hbest hmet
            · exact hlater e he other hother

/-- The name that a file is listed under: its path without the longest extension that it has, if
anything is left. -/
structure IsListedAs (fileName name : String) : Prop where
  ne_empty : name ≠ ""
  exists_extension : ∃ extension ∈ templateExtensions, fileName = name ++ extension
  shortest : ∀ extension ∈ templateExtensions, ∀ other, other ≠ "" →
    fileName = other ++ extension → name.length ≤ other.length

theorem isListedAs_of_dropExtension? (h : dropExtension? fileName = some name) :
    IsListedAs fileName name := by
  obtain ⟨hfrom, -, hshortest⟩ := foldl_shorter h
  obtain ⟨extension, hextension, hdrop⟩ := hfrom.resolve_left nofun
  obtain ⟨hname, hfile⟩ := dropEnding?_eq_some_iff.mp hdrop
  exact ⟨hname, ⟨extension, hextension, hfile⟩, fun e he other hne heq =>
    hshortest e he other (dropEnding?_eq_some_iff.mpr ⟨hne, heq⟩)⟩

namespace SearchPath

variable {s : SearchPath} {tree : FileTree}

/-- A file below a directory of the search path that a name is listed for. -/
structure IsListing (s : SearchPath) (tree : FileTree) (dir : String) (path : List String)
    (name : String) : Prop where
  mem_dirs : dir ∈ s.dirs
  exists_entries : ∃ entries, tree.find? dir = some (.directory entries) ∧
    path ∈ FileTree.entryPaths entries
  isListedAs : IsListedAs (String.intercalate "/" path) name

theorem mem_filesIn {dir : String} {files : List TemplateFile} (h : filesIn tree dir = .ok files)
    {file : TemplateFile} (hfile : file ∈ files) :
    ∃ entries path, tree.find? dir = some (.directory entries) ∧
      path ∈ FileTree.entryPaths entries ∧
      IsListedAs (String.intercalate "/" path) file.name := by
  rw [filesIn] at h
  split at h
  · rename_i entries hentries
    cases h
    obtain ⟨path, hpath, hmap⟩ := List.mem_filterMap.mp hfile
    obtain ⟨name, hname, rfl⟩ := Option.map_eq_some_iff.mp hmap
    exact ⟨entries, path, hentries, hpath, isListedAs_of_dropExtension? hname⟩
  · cases h
  · cases h

theorem exists_filesIn_of_mem {dirs : List String} {files : List TemplateFile}
    (h : filesInAll tree dirs = .ok files) {file : TemplateFile} (hfile : file ∈ files) :
    ∃ dir ∈ dirs, ∃ found, filesIn tree dir = .ok found ∧ file ∈ found := by
  induction dirs generalizing files with
  | nil =>
      cases h
      contradiction
  | cons dir dirs ih =>
      rw [filesInAll] at h
      split at h
      · cases h
      · rename_i found hfound
        split at h
        · rename_i more hmore
          cases h
          rcases List.mem_append.mp hfile with hhere | hlater
          · exact ⟨dir, List.mem_cons_self, found, hfound, hhere⟩
          · obtain ⟨other, hother, hrest⟩ := ih hmore hlater
            exact ⟨other, List.mem_cons_of_mem _ hother, hrest⟩
        · cases h

/-- Every listed name is listed for a file. -/
theorem exists_isListing_of_names {listed : List String} (h : s.names tree = .ok listed)
    (hname : name ∈ listed) : ∃ dir path, s.IsListing tree dir path name := by
  rw [names] at h
  split at h
  · rename_i files hfiles
    cases h
    obtain ⟨file, hfile, rfl⟩ := List.mem_map.mp (NameMap.mem_of_mem_sortNames hname)
    obtain ⟨dir, hdir, found, hfound, hmem⟩ := exists_filesIn_of_mem hfiles hfile
    obtain ⟨entries, path, hentries, hpath, hlisted⟩ := mem_filesIn hfound hmem
    exact ⟨dir, path, hdir, ⟨entries, hentries, hpath⟩, hlisted⟩
  · cases h

variable {dir : String} {path : List String}

/-- The names on a path joined are a name that may be resolved. -/
theorem isTemplateName_intercalate (hne : path ≠ [])
    (h : ∀ component ∈ path, FileTree.IsEntryName component) :
    IsTemplateName (String.intercalate "/" path) := by
  have hcomponents := FileTree.components_intercalate hne fun component hmem =>
    (h component hmem).no_separator
  have hblank : "" ∉ FileTree.components (String.intercalate "/" path) := by
    rw [hcomponents]
    exact fun hmem => (h "" hmem).ne_empty rfl
  refine ⟨?_, ?_, ?_⟩
  · intro hempty
    simp [hempty] at hblank
  · intro hhead
    obtain ⟨rest, hrest⟩ := FileTree.components_of_head hhead
    simp [hrest] at hblank
  · rw [hcomponents]
    exact fun hmem => (h ".." hmem).ne_parent rfl

/-- The components of a listed name are those of the path to its file, the last one without the
extension; and the file is there. -/
theorem IsListing.exists_extension (h : s.IsListing tree dir path name) (htree : tree.WellNamed) :
    ∃ extension ∈ templateExtensions,
      tree.isFileAt (joinPath dir (name ++ extension)) = true ∧
      ∃ front last, FileTree.components name = front ++ [last] ∧
        ∀ component ∈ front, FileTree.IsEntryName component := by
  obtain ⟨entries, hentries, hpath⟩ := h.exists_entries
  obtain ⟨extension, hextension, hfile⟩ := h.isListedAs.exists_extension
  have hdirectory : (FileTree.directory entries).WellNamed := htree.find? hentries
  have hisPath := FileTree.isFilePath_of_mem_filePaths hdirectory hpath
  have hne : path ≠ [] := by
    obtain ⟨first, child, rest, rfl, -⟩ :=
      FileTree.exists_lookup_of_mem_entryPaths hdirectory hpath
    exact List.cons_ne_nil _ _
  have hcomponents := FileTree.components_intercalate hne fun component hmem =>
    (hisPath.names component hmem).no_separator
  refine ⟨extension, hextension, ?_, ?_⟩
  · have hname := isTemplateName_intercalate hne hisPath.names
    obtain ⟨content, hcontent⟩ := hisPath.leads
    have hfind := (hname.isBelow tree dir).leads _ hentries
    rw [hcomponents, hcontent] at hfind
    rw [← hfile, FileTree.isFileAt, hfind]
    rfl
  · obtain ⟨front, last, hsplit, happend⟩ := FileTree.components_append
      (not_mem_extension (List.mem_cons_of_mem _ hextension)) name
    refine ⟨front, last, hsplit, fun component hmem => hisPath.names component ?_⟩
    rw [← hcomponents, hfile, happend]
    exact List.mem_append_left _ hmem

theorem IsListing.relative (h : s.IsListing tree dir path name) (htree : tree.WellNamed) :
    name.toList.head? ≠ some '/' := by
  intro hhead
  obtain ⟨-, -, -, front, last, hsplit, hfront⟩ := h.exists_extension htree
  obtain ⟨rest, hrest⟩ := FileTree.components_of_head hhead
  -- Something follows the empty component, so it is not the last one.
  cases front with
  | nil =>
      rw [hsplit] at hrest
      exact FileTree.components_ne_nil rest (List.cons.inj hrest).2.symm
  | cons component front =>
      rw [hsplit] at hrest
      exact (hfront component List.mem_cons_self).ne_empty (List.cons.inj hrest).1

/-- Only the last component can be `..`, where the extension has been taken off. -/
theorem IsListing.mem_components_iff (h : s.IsListing tree dir path name)
    (htree : tree.WellNamed) :
    ".." ∈ FileTree.components name ↔ (FileTree.components name).getLast? = some ".." := by
  obtain ⟨-, -, -, front, last, hsplit, hfront⟩ := h.exists_extension htree
  have hnot : ".." ∉ front := fun hmem => (hfront ".." hmem).ne_parent rfl
  simp [hsplit, hnot, eq_comm]

/-- A listed name resolves to a file, unless its last component is `..`: then it is refused, although
the file that it is listed for is there. Every name is listed for a file, whose path below one of the
directories it is, without the longest extension. -/
theorem listed_resolve (htree : tree.WellNamed) {listed : List String}
    (h : s.names tree = .ok listed) :
    ∀ name ∈ listed,
      (∃ dir path, s.IsListing tree dir path name) ∧
      (∃ dir ∈ s.dirs, ∃ extension ∈ templateExtensions,
        tree.isFileAt (joinPath dir (name ++ extension)) = true) ∧
      ((FileTree.components name).getLast? ≠ some ".." →
        ∃ path, s.resolve tree name = .ok (some path) ∧ tree.isFileAt path = true) ∧
      ((FileTree.components name).getLast? = some ".." →
        s.resolve tree name = .error (.invalidName name "`..` is not allowed")) := by
  intro name hname
  obtain ⟨dir, path, hlisting⟩ := exists_isListing_of_names h hname
  obtain ⟨extension, hextension, hisFile, -⟩ := hlisting.exists_extension htree
  have hiff := hlisting.mem_components_iff htree
  refine ⟨⟨dir, path, hlisting⟩, ⟨dir, hlisting.mem_dirs, extension, hextension, hisFile⟩, ?_, ?_⟩
  · intro hlast
    have hmem : joinPath dir (name ++ extension) ∈ s.candidatePaths name :=
      mem_candidatePaths.mpr ⟨dir, hlisting.mem_dirs, extension,
        List.mem_cons_of_mem _ hextension, rfl⟩
    rw [resolve_of_isTemplateName ⟨hlisting.isListedAs.ne_empty, hlisting.relative htree,
      fun hparent => hlast (hiff.mp hparent)⟩]
    cases hfind : (s.candidatePaths name).find? tree.isFileAt with
    | none => exact absurd hisFile (List.find?_eq_none.mp hfind _ hmem)
    | some found => exact ⟨found, rfl, List.find?_some hfind⟩
  · intro hlast
    rw [resolve, nameFault?_eq, if_neg hlisting.isListedAs.ne_empty,
      if_neg (hlisting.relative htree), if_pos (hiff.mpr hlast)]

/-- Files whose names are little more than an extension, in two directories. -/
def dottedFiles : FileTree :=
  .directory
    [("d", .directory
      [("..sql", .file []), (".sql.j2", .file []), ("a", .directory [(".sql", .file [])]),
        ("a.sql", .directory [("...sql.j2", .file [])])]),
    ("e", .directory [("a", .file []), ("...sql", .file []), ("b.j2.sql", .file [])])]

/-- Of these names only the two are refused that end in `..`. -/
theorem listed_resolve_dotted :
    dottedFiles.WellNamed ∧
      SearchPath.names ⟨["d", "e"]⟩ dottedFiles =
        .ok [".", "..", ".sql", "a.sql/..", "a/", "b.j2"] ∧
      (∃ path, SearchPath.resolve ⟨["d", "e"]⟩ dottedFiles "a/" = .ok (some path) ∧
        dottedFiles.isFileAt path = true) ∧
      SearchPath.resolve ⟨["d", "e"]⟩ dottedFiles "a.sql/.." =
        .error (.invalidName "a.sql/.." "`..` is not allowed") := by
  have hnamed : dottedFiles.WellNamed := by
    simp only [dottedFiles, FileTree.WellNamed, FileTree.WellNamedEntries]
    decide
  have hlisted : SearchPath.names ⟨["d", "e"]⟩ dottedFiles =
      .ok [".", "..", ".sql", "a.sql/..", "a/", "b.j2"] := rfl
  exact ⟨hnamed, hlisted,
    (listed_resolve hnamed hlisted "a/" (by decide)).2.2.1 (by decide),
    (listed_resolve hnamed hlisted "a.sql/.." (by decide)).2.2.2 (by decide)⟩

/-- A file called `...sql` is listed as `..`, which does not resolve. -/
theorem dots_listed_unresolved :
    (FileTree.directory [("d", .directory [("...sql", .file [49])])]).WellNamed ∧
      SearchPath.names ⟨["d"]⟩ (.directory [("d", .directory [("...sql", .file [49])])]) =
        .ok [".."] ∧
      ¬ ∃ path, SearchPath.resolve ⟨["d"]⟩
        (.directory [("d", .directory [("...sql", .file [49])])]) ".." = .ok (some path) := by
  refine ⟨?_, rfl, ?_⟩
  · simp only [FileTree.WellNamed, FileTree.WellNamedEntries]
    decide
  · rintro ⟨path, hpath⟩
    cases hpath

end SearchPath

end QueryTemplate
