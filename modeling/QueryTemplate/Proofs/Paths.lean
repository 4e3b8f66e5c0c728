import QueryTemplate.Proofs.TagScanning
import QueryTemplate.Search.SearchPath

/-!
Paths read component by component. A path is a text, and joining a directory with a name, or putting
an extension behind a name, is done to the text; what the text leads to is decided by its components.
The lemmas here say what the operations on the text do to the components, and what a path without
`..` leads to: `descend` takes the entries of directories one by one and never looks back at the
directories above.
-/

namespace QueryTemplate

namespace Text

theorem splitOn_append_cons (c : Char) (text rest : List Char) :
    (text ++ c :: rest).splitOn c = text.splitOn c ++ rest.splitOn c :=
  List.splitOnP_append_cons text rest (beq_self_eq_true c)

/-- What a text is split into at the first occurrence of a character. -/
theorem splitAtFirst_singleton (c : Char) (text : List Char) :
    (c ∉ text ∧ splitAtFirst [c] text = none) ∨
      ∃ before rest, c ∉ before ∧ text = before ++ c :: rest ∧
        splitAtFirst [c] text = some (before, rest) := by
  induction text with
  | nil => exact .inl ⟨List.not_mem_nil, rfl⟩
  | cons x text ih =>
      by_cases hx : c = x
      · subst hx
        exact .inr ⟨[], text, List.not_mem_nil, rfl, by simp [splitAtFirst, dropHead?]⟩
      · have hdrop : dropHead? [c] (x :: text) = none := if_neg hx
        rcases ih with ⟨hmem, hnone⟩ | ⟨before, rest, hmem, rfl, hsome⟩
        · exact .inl ⟨by simp [hx, hmem], by rw [splitAtFirst, hdrop, hnone]; rfl⟩
        · refine .inr ⟨x :: before, rest, by simp [hx, hmem], rfl, ?_⟩
          rw [splitAtFirst, hdrop, hsome]
          rfl

theorem splitAll_singleton (c : Char) {fuel : Nat} {text : List Char} (h : text.length ≤ fuel) :
    splitAll [c] fuel text = text.splitOn c := by
  induction fuel generalizing text with
  | zero =>
      obtain rfl : text = [] := by simpa using h
      rfl
  | succ fuel ih =>
      rw [splitAll]
      rcases splitAtFirst_singleton c text with ⟨hmem, hnone⟩ | ⟨before, rest, hmem, rfl, hsome⟩
      · rw [hnone, List.splitOn_eq_singleton hmem]
      · have hlength : rest.length ≤ fuel := by
          simp only [List.length_append, List.length_cons] at h
          omega
        rw [hsome, splitOn_append_cons, List.splitOn_eq_singleton hmem, ← ih hlength]
        rfl

/-- A text that goes behind another one without a further separator belongs to the last piece. -/
theorem splitOn_append_of_not_mem {c : Char} {ending : List Char} (h : c ∉ ending)
    (text : List Char) :
    ∃ front last, text.splitOn c = front ++ [last] ∧
      (text ++ ending).splitOn c = front ++ [last ++ ending] := by
  induction text with
  | nil => exact ⟨[], [], rfl, List.splitOn_eq_singleton h⟩
  | cons x text ih =>
      obtain ⟨front, last, htext, happend⟩ := ih
      have hcons : ∀ rest : List Char, (x :: rest).splitOn c =
          if x == c then [] :: rest.splitOn c else (rest.splitOn c).modifyHead (x :: ·) :=
        fun rest => List.splitOnP_cons_eq_if_modifyHead x rest
      rw [List.cons_append, hcons, hcons, htext, happend]
      split
      · exact ⟨[] :: front, last, rfl, rfl⟩
      · cases front with
        | nil => exact ⟨[], x :: last, rfl, rfl⟩
        | cons piece front => exact ⟨(x :: piece) :: front, last, rfl, rfl⟩

end Text

namespace FileTree

/-! ### Components of texts -/

theorem components_eq (path : String) :
    components path = (path.toList.splitOn '/').map String.ofList := by
  rw [components, Text.splitAll_singleton '/' (Nat.le_refl _)]

theorem components_ne_nil (path : String) : components path ≠ [] := by
  rw [components_eq, Ne, List.map_eq_nil_iff]
  exact List.splitOnP_ne_nil _ _

@[simp] theorem components_empty : components "" = [""] := rfl

theorem components_append_slash (front name : String) :
    components (front ++ "/" ++ name) = components front ++ components name := by
  have htext : (front ++ "/" ++ name).toList = front.toList ++ '/' :: name.toList := by simp
  rw [components_eq, htext, Text.splitOn_append_cons, List.map_append, ← components_eq,
    ← components_eq]

theorem components_of_head {name : String} (h : name.toList.head? = some '/') :
    ∃ rest, components name = "" :: components rest := by
  obtain ⟨rest, hrest⟩ := List.head?_eq_some_iff.mp h
  obtain rfl : name = "" ++ "/" ++ String.ofList rest := by
    rw [← String.toList_inj, hrest]
    simp
  exact ⟨String.ofList rest, components_append_slash "" (String.ofList rest)⟩

theorem components_intercalate {names : List String} (hne : names ≠ [])
    (h : ∀ name ∈ names, '/' ∉ name.toList) :
    components (String.intercalate "/" names) = names := by
  rw [components_eq, String.toList_intercalate, show "/".toList = ['/'] from rfl,
    List.splitOn_intercalate '/' (by simpa using h) (by simpa using hne), List.map_map]
  exact List.map_id'' (fun name => String.ofList_toList) names

/-- An extension belongs to the last component of a name. -/
theorem components_append {ending : String} (h : '/' ∉ ending.toList) (name : String) :
    ∃ front last, components name = front ++ [last] ∧
      components (name ++ ending) = front ++ [last ++ ending] := by
  obtain ⟨front, last, hname, happend⟩ := Text.splitOn_append_of_not_mem h name.toList
  refine ⟨front.map String.ofList, String.ofList last, ?_, ?_⟩
  · rw [components_eq, hname, List.map_append, List.map_singleton]
  · rw [components_eq, String.toList_append, happend, List.map_append, List.map_singleton,
      String.ofList_append, String.ofList_toList]

/-- The components of a directory that names are put behind: a last separator is not written
twice. -/
def directoryComponents (dir : String) : List String :=
  if (components dir).getLast? = some "" then (components dir).dropLast else components dir

/-- A text ends in a separator exactly if its last component is empty. -/
theorem directoryComponents_cases (dir : String) :
    (dir = "" ∧ directoryComponents dir = []) ∨
      (∃ front, dir = front ++ "/" ∧ directoryComponents dir = components front) ∨
      (dir ≠ "" ∧ dir.toList.getLast? ≠ some '/' ∧ directoryComponents dir = components dir) := by
  rcases List.eq_nil_or_concat dir.toList with hnil | ⟨front, c, hdir⟩
  · obtain rfl : dir = "" := String.toList_eq_nil_iff.mp hnil
    exact .inl ⟨rfl, rfl⟩
  · by_cases hc : c = '/'
    · subst hc
      obtain rfl : dir = String.ofList front ++ "/" := by
        rw [← String.toList_inj, hdir]
        simp
      refine .inr (.inl ⟨_, rfl, ?_⟩)
      have hcomponents := components_append_slash (String.ofList front) ""
      rw [String.append_empty, components_empty] at hcomponents
      rw [directoryComponents, hcomponents]
      simp
    · obtain rfl : dir = String.ofList front ++ String.singleton c := by
        rw [← String.toList_inj, hdir]
        simp
      refine .inr (.inr ⟨?_, ?_, ?_⟩)
      · intro hempty
        simp [hempty] at hdir
      · simpa using hc
      · have hseparator : '/' ∉ (String.singleton c).toList := by simp [Ne.symm hc]
        obtain ⟨before, last, -, hcomponents⟩ := components_append hseparator (String.ofList front)
        rw [directoryComponents, hcomponents, List.getLast?_concat, if_neg (by simp)]

theorem joinPath_of_head {name : String} (h : name.toList.head? ≠ some '/') (dir : String) :
    joinPath dir name =
      match dir.toList.getLast? with
      | none => name
      | some '/' => dir ++ name
      | some _ => dir ++ "/" ++ name := by
  rw [joinPath]
  split
  · rename_i hname
    simp [hname] at h
  · rfl

/-- Joining a name with a directory puts its components behind those of the directory. -/
theorem components_joinPath {name : String} (h : name.toList.head? ≠ some '/') (dir : String) :
    components (joinPath dir name) = directoryComponents dir ++ components name := by
  rw [joinPath_of_head h]
  rcases directoryComponents_cases dir with ⟨rfl, hdir⟩ | ⟨front, rfl, hdir⟩ | ⟨hne, hlast, hdir⟩
  · rw [hdir]
    rfl
  · rw [hdir, ← components_append_slash]
    simp
  · rw [hdir, ← components_append_slash]
    split
    · rename_i hnone
      exact absurd (String.toList_eq_nil_iff.mp (List.getLast?_eq_none_iff.mp hnone)) hne
    · contradiction
    · rfl

/-! ### What components lead to -/

/-- The node that components lead to by the entries of directories, one below the other. -/
def descend (here : FileTree) : List String → Option FileTree
  | [] => some here
  | name :: rest =>
    if !here.isDirectory then none
    else if name = "" || name = "." then descend here rest
    else (here.child? name).bind (descend · rest)

theorem follow_cons (above : List FileTree) (here : FileTree) (name : String)
    (rest : List String) :
    follow above here (name :: rest) =
      if !here.isDirectory then none
      else if name = "" || name = "." then follow above here rest
      else if name = ".." then follow above.tail (above.headD here) rest
      else (here.child? name).bind fun next => follow (here :: above) next rest := by
  cases above with
  | nil => rw [follow]; cases child? name here <;> rfl
  | cons parent above => rw [follow]; cases child? name here <;> rfl

/-- Without `..` the directories above are never looked at. -/
theorem follow_of_not_mem {names : List String} (h : ".." ∉ names) (above : List FileTree)
    (here : FileTree) : follow above here names = here.descend names := by
  induction names generalizing above here with
  | nil => rfl
  | cons name names ih =>
      obtain ⟨hname, hnames⟩ : name ≠ ".." ∧ ".." ∉ names := by
        simpa [eq_comm] using h
      rw [follow_cons, descend, if_neg hname]
      simp only [ih hnames]

/-- What comes behind a path is followed from where the path leads to. -/
theorem follow_append {names : List String} (h : ".." ∉ names) (above : List FileTree)
    (here : FileTree) (front : List String) :
    follow above here (front ++ names) = (follow above here front).bind (·.descend names) := by
  induction front generalizing above here with
  | nil => exact follow_of_not_mem h above here
  | cons name front ih =>
      rw [List.cons_append, follow_cons, follow_cons]
      split
      · rfl
      · split
        · exact ih above here
        · split
          · exact ih above.tail (above.headD here)
          · cases here.child? name with
            | none => rfl
            | some next => exact ih (here :: above) next

theorem descend_file (content : List UInt8) {names : List String} (h : names ≠ []) :
    (file content).descend names = none := by
  obtain ⟨name, rest, rfl⟩ := List.exists_cons_of_ne_nil h
  rfl

/-- A separator behind a path asks for a directory, as a name behind it does. -/
theorem descend_blank (here : FileTree) {names : List String} (h : names ≠ []) :
    (here.descend [""]).bind (·.descend names) = here.descend names := by
  cases here with
  | file content => rw [descend_file content h, descend_file content (by simp)]; rfl
  | directory entries => rfl

theorem joinPath_ne_empty {dir name : String} (hdir : dir ≠ "")
    (hhead : name.toList.head? ≠ some '/') : joinPath dir name ≠ "" := by
  rw [joinPath_of_head hhead]
  split
  · rename_i hnone
    exact absurd (String.toList_eq_nil_iff.mp (List.getLast?_eq_none_iff.mp hnone)) hdir
  · simp [hdir]
  · simp

/-- A name without `..` that is joined with a directory leads to where it leads from there. -/
theorem find?_joinPath {dir name : String} (hdir : dir ≠ "") (hhead : name.toList.head? ≠ some '/')
    (hname : ".." ∉ components name) (tree : FileTree) :
    tree.find? (joinPath dir name) = (tree.find? dir).bind (·.descend (components name)) := by
  rw [find?, find?, if_neg hdir, if_neg (joinPath_ne_empty hdir hhead), components_joinPath hhead,
    follow_append hname]
  rcases directoryComponents_cases dir with ⟨h, -⟩ | ⟨front, hfront, h⟩ | ⟨-, -, h⟩
  · contradiction
  · -- The directory is written with a separator behind it, which is not written a second time.
    have hblank : components dir = components front ++ [""] := by
      have h := components_append_slash front ""
      rwa [String.append_empty, ← hfront, components_empty] at h
    rw [h, hblank, follow_append (by simp), Option.bind_assoc]
    simp only [descend_blank _ (components_ne_nil name)]
  · rw [h]

/-! ### Trees of files -/

/-- A name that an entry of a directory can have. -/
structure IsEntryName (name : String) : Prop where
  ne_empty : name ≠ ""
  ne_here : name ≠ "."
  ne_parent : name ≠ ".."
  no_separator : '/' ∉ name.toList

instance (name : String) : Decidable (IsEntryName name) :=
  decidable_of_iff (name ≠ "" ∧ name ≠ "." ∧ name ≠ ".." ∧ '/' ∉ name.toList)
    ⟨fun ⟨h₁, h₂, h₃, h₄⟩ => ⟨h₁, h₂, h₃, h₄⟩,
      fun h => ⟨h.ne_empty, h.ne_here, h.ne_parent, h.no_separator⟩⟩

mutual

/-- Every directory of the tree tells its entries apart by names that entries can have. -/
def WellNamed : FileTree → Prop
  | file _ => True
  | directory entries => WellNamedEntries entries

def WellNamedEntries : List (String × FileTree) → Prop
  | [] => True
  | (name, tree) :: rest =>
    IsEntryName name ∧ (∀ entry ∈ rest, entry.1 ≠ name) ∧ tree.WellNamed ∧ WellNamedEntries rest

end

theorem WellNamedEntries.lookup {name : String} {child : FileTree}
    {entries : List (String × FileTree)} (h : WellNamedEntries entries)
    (hlookup : entries.lookup name = some child) : child.WellNamed := by
  induction entries with
  | nil => cases hlookup
  | cons entry entries ih =>
      obtain ⟨first, tree⟩ := entry
      obtain ⟨-, -, htree, hentries⟩ := h
      rw [List.lookup_cons] at hlookup
      split at hlookup
      · cases hlookup
        exact htree
      · exact ih hentries hlookup

theorem WellNamed.child? {name : String} {here child : FileTree} (h : here.WellNamed)
    (hchild : here.child? name = some child) : child.WellNamed := by
  cases here with
  | file content => cases hchild
  | directory entries => exact WellNamedEntries.lookup h hchild

theorem WellNamed.follow {names : List String} {above : List FileTree} {here node : FileTree}
    (habove : ∀ parent ∈ above, parent.WellNamed) (h : here.WellNamed)
    (hfollow : follow above here names = some node) : node.WellNamed := by
  induction names generalizing above here with
  | nil =>
      cases hfollow
      exact h
  | cons name names ih =>
      rw [follow_cons] at hfollow
      split at hfollow
      · cases hfollow
      · split at hfollow
        · exact ih habove h hfollow
        · split at hfollow
          · -- Upwards the path leads to one of the directories above, or stays at the root.
            refine ih (fun parent hparent => habove parent (List.mem_of_mem_tail hparent)) ?_ hfollow
            cases above with
            | nil => exact h
            | cons parent above => exact habove parent List.mem_cons_self
          · obtain ⟨next, hnext, hfollow⟩ := Option.bind_eq_some_iff.mp hfollow
            refine ih ?_ (h.child? hnext) hfollow
            intro parent hparent
            rcases List.mem_cons.mp hparent with rfl | hparent
            · exact h
            · exact habove parent hparent

theorem WellNamed.find? {tree node : FileTree} {path : String} (h : tree.WellNamed)
    (hfind : tree.find? path = some node) : node.WellNamed := by
  rw [FileTree.find?] at hfind
  split at hfind
  · cases hfind
  · exact WellNamed.follow (by simp) h hfind

/-- A path below a node that leads to a file, by names that entries can have. -/
structure IsFilePath (tree : FileTree) (path : List String) : Prop where
  names : ∀ name ∈ path, IsEntryName name
  leads : ∃ content, tree.descend path = some (file content)

theorem IsFilePath.cons {entries : List (String × FileTree)} {name : String} {child : FileTree}
    {path : List String} (hname : IsEntryName name) (hlookup : entries.lookup name = some child)
    (h : child.IsFilePath path) : (directory entries).IsFilePath (name :: path) where
  names := by
    intro other hother
    rcases List.mem_cons.mp hother with rfl | hother
    · exact hname
    · exact h.names other hother
  leads := by
    obtain ⟨content, hcontent⟩ := h.leads
    refine ⟨content, ?_⟩
    have hplain : (decide (name = "") || decide (name = ".")) = false := by
      simp [hname.ne_empty, hname.ne_here]
    rw [descend, hplain, child?, hlookup]
    exact hcontent

mutual

theorem isFilePath_of_mem_filePaths {tree : FileTree} (h : tree.WellNamed) {path : List String}
    (hpath : path ∈ tree.filePaths) : tree.IsFilePath path := by
  cases tree with
  | file content =>
      obtain rfl : path = [] := by simpa [filePaths] using hpath
      exact ⟨by simp, content, rfl⟩
  | directory entries =>
      obtain ⟨name, child, rest, rfl, hname, hlookup, hrest⟩ :=
        exists_lookup_of_mem_entryPaths h hpath
      exact hrest.cons hname hlookup

/-- The path of a file goes through the entry of its first name. -/
theorem exists_lookup_of_mem_entryPaths {entries : List (String × FileTree)}
    (h : WellNamedEntries entries) {path : List String} (hpath : path ∈ entryPaths entries) :
    ∃ name child rest, path = name :: rest ∧ IsEntryName name ∧
      entries.lookup name = some child ∧ child.IsFilePath rest := by
  cases entries with
  | nil => simp [entryPaths] at hpath
  | cons entry entries =>
      obtain ⟨first, tree⟩ := entry
      obtain ⟨hfirst, hothers, htree, hentries⟩ := h
      rcases List.mem_append.mp hpath with hhere | hlater
      · obtain ⟨rest, hrest, rfl⟩ := List.mem_map.mp hhere
        exact ⟨first, tree, rest, rfl, hfirst, List.lookup_cons_self,
          isFilePath_of_mem_filePaths htree hrest⟩
      · obtain ⟨name, child, rest, rfl, hname, hlookup, hrest⟩ :=
          exists_lookup_of_mem_entryPaths hentries hlater
        refine ⟨name, child, rest, rfl, hname, ?_, hrest⟩
        -- The first entry has a name of its own, so it does not stand in front of the other one.
        have hne : name ≠ first := by
          obtain ⟨before, after, rfl, -⟩ := List.lookup_eq_some_iff.mp hlookup
          exact hothers (name, child) (by simp)
        rw [List.lookup_cons, beq_eq_false_iff_ne.mpr hne]
        exact hlookup

end

end FileTree

end QueryTemplate
