import QueryTemplate.Proofs.Exactness

/-!
Which keys are words. A key is written into the query as it is, so it must not bring more than a word
along. Numbers that are appended do no harm, and neither do the dots of a hint, which are replaced:
the keys of a query are words exactly if the hints of its parameters are dotted.
-/

namespace QueryTemplate

/-- A text of letters, digits and underscores, of which there is at least one. -/
def IsWord (text : String) : Prop :=
  text ≠ "" ∧ ∀ c ∈ text.toList, Text.isNamePart c = true

/-- A text of letters, digits, underscores and dots, of which there is at least one. -/
def IsDotted (text : String) : Prop :=
  text ≠ "" ∧ ∀ c ∈ text.toList, Text.isNamePart c = true ∨ c = '.'

instance (text : String) : Decidable (IsWord text) :=
  decidable_of_iff (text ≠ "" ∧ text.toList.all Text.isNamePart = true) (by simp [IsWord])

instance (text : String) : Decidable (IsDotted text) :=
  decidable_of_iff (text ≠ "" ∧ (text.toList.all fun c => Text.isNamePart c || c == '.') = true)
    (by simp [IsDotted])

theorem isNamePart_of_isDigit {c : Char} (h : c.isDigit = true) : Text.isNamePart c = true := by
  rw [Text.isNamePart, isAsciiDigit_of_isDigit h, Bool.or_true]

theorem IsWord.append {text more : String} (h : IsWord text)
    (hmore : ∀ c ∈ more.toList, Text.isNamePart c = true) : IsWord (text ++ more) := by
  refine ⟨fun hempty => h.1 (String.append_eq_empty_iff.mp hempty).1, fun c hc => ?_⟩
  rw [String.toList_append] at hc
  exact (List.mem_append.mp hc).elim (h.2 c) (hmore c)

theorem IsDotted.append {text more : String} (h : IsDotted text)
    (hmore : ∀ c ∈ more.toList, Text.isNamePart c = true) : IsDotted (text ++ more) := by
  refine ⟨fun hempty => h.1 (String.append_eq_empty_iff.mp hempty).1, fun c hc => ?_⟩
  rw [String.toList_append] at hc
  exact (List.mem_append.mp hc).elim (h.2 c) fun hc => .inl (hmore c hc)

/-- The characters of a number that is appended. -/
theorem isNamePart_of_mem_suffix (n : Nat) :
    ∀ c ∈ ("_" ++ toString n).toList, Text.isNamePart c = true := by
  intro c hc
  rw [String.toList_append] at hc
  rcases List.mem_append.mp hc with hc | hc
  · obtain rfl := List.mem_singleton.mp hc
    rfl
  · exact isNamePart_of_isDigit (isDigit_of_mem_toString hc)

theorem isWord_numbered {base : String} (h : IsWord base) (n : Nat) :
    IsWord (KeyAllocator.numbered base n) := by
  rw [KeyAllocator.numbered, String.append_assoc]
  exact h.append (isNamePart_of_mem_suffix n)

theorem isDotted_numbered {hint : String} (h : IsDotted hint) (n : Nat) :
    IsDotted (hint ++ "_" ++ toString n) := by
  rw [String.append_assoc]
  exact h.append (isNamePart_of_mem_suffix n)

/-- The key of a parameter without a hint is a word. -/
theorem isWord_position (n : Nat) : IsWord ("param_" ++ toString n) :=
  IsWord.append (by decide) fun _ hc => isNamePart_of_isDigit (isDigit_of_mem_toString hc)

/-- A hint makes a word of a key if it has no other characters than those of words, and dots. -/
theorem isWord_keyOfHint_iff {hint : String} : IsWord (keyOfHint hint) ↔ IsDotted hint := by
  have hparts (c : Char) : (∀ d ∈ (if c == '.' then ['_', '_'] else [c]), Text.isNamePart d = true) ↔
      Text.isNamePart c = true ∨ c = '.' := by
    by_cases hc : c = '.'
    · subst hc
      exact iff_of_true (List.all_eq_true.mp rfl) (.inr rfl)
    · simp [hc]
  have hempty : keyOfHint hint = "" ↔ hint = "" := by
    rw [keyOfHint, ← String.toList_inj, String.toList_ofList, ← String.toList_inj]
    cases hint.toList with
    | nil => simp
    | cons c rest => by_cases hc : c = '.' <;> simp [hc]
  rw [IsWord, IsDotted, Ne, hempty, keyOfHint, String.toList_ofList]
  refine and_congr_right fun _ => ?_
  simp only [List.mem_flatMap, forall_exists_index, and_imp]
  constructor
  · intro h c hc
    exact (hparts c).mp fun d hd => h d c hc hd
  · intro h d c hc hd
    exact (hparts c).mpr (h c hc) d hd

/-! ### Keys of a mapping -/

namespace KeyAllocator

/-- A key is a word if its base is. The other way round, a base that is no word is a key, of this
parameter or of one in front of it. -/
theorem DerivedFrom.isWord_iff {taken : List String} {base key : String}
    (h : DerivedFrom taken base key) (htaken : ∀ k ∈ taken, IsWord k) :
    IsWord key ↔ IsWord base := by
  rcases h with ⟨-, rfl⟩ | ⟨hbase, -, n, -, rfl⟩
  · rfl
  · exact iff_of_true (isWord_numbered (htaken base hbase) n) (htaken base hbase)

theorem isWord_allocateAll_iff {keys : KeyAllocator} (hkeys : ∀ k ∈ keys.taken, IsWord k)
    (bases : List String) :
    (∀ key ∈ keys.allocateAll bases, IsWord key) ↔ ∀ base ∈ bases, IsWord base := by
  induction bases generalizing keys with
  | nil => exact iff_of_true (List.forall_mem_nil _) (List.forall_mem_nil _)
  | cons base rest ih =>
      have hfirst := (keys.allocate_derivedFrom base).isWord_iff hkeys
      rw [allocateAll, List.forall_mem_cons, List.forall_mem_cons, hfirst]
      refine and_congr_right fun hbase => ih ?_
      rw [taken_allocate]
      exact List.forall_mem_cons.mpr ⟨hfirst.mpr hbase, hkeys⟩

end KeyAllocator

namespace ParamStyle

variable {style : ParamStyle}

theorem isWord_baseKey_iff (h : style.container = .mapping) (position : Nat)
    (hint : Option String) :
    IsWord (style.baseKey position hint) ↔ ∀ text, hint = some text → IsDotted text := by
  cases hint with
  | none =>
      rw [baseKey_of_mapping h]
      exact iff_of_true (isWord_position position) fun _ hnone => by cases hnone
  | some text =>
      rw [baseKey_some, isWord_keyOfHint_iff]
      simp

theorem isWord_baseKeys_iff (h : style.container = .mapping) (bound : Nat)
    (hints : List (Option String)) :
    (∀ base ∈ style.baseKeys bound hints, IsWord base) ↔
      ∀ text, some text ∈ hints → IsDotted text := by
  induction hints generalizing bound with
  | nil => simp [baseKeys]
  | cons hint rest ih =>
      rw [baseKeys_cons, List.forall_mem_cons, isWord_baseKey_iff h, ih]
      simp only [List.mem_cons, or_imp, forall_and, eq_comm]

end ParamStyle

/-! ### Keys of a query -/

namespace CaptureList

/-- The hints of the captures that the markers of a text refer to, in the order of the markers. -/
def hintsIn (captures : CaptureList) (text : String) : List (Option String) :=
  match segments text.toList with
  | .ok segs => (markerIndices segs).map fun index => (captures.get? index).bind (·.hint)
  | .error _ => []

variable {captures : CaptureList}

theorem hintsIn_of_segments {text : String} {segs : List Segment}
    (hsegs : segments text.toList = .ok segs) {found : List Capture}
    (h : (markerIndices segs).map captures.get? = found.map some) :
    captures.hintsIn text = found.map (·.hint) := by
  have hmap : (markerIndices segs).map (fun index => (captures.get? index).bind (·.hint)) =
      ((markerIndices segs).map captures.get?).map fun capture? => capture?.bind (·.hint) := by
    rw [List.map_map]
    rfl
  rw [hintsIn, hsegs]
  simp only [hmap, h, List.map_map]
  rfl

/-- A hint in a text is that of a capture. -/
theorem mem_hints_of_mem_hintsIn {text : String} {hint : String}
    (h : some hint ∈ captures.hintsIn text) :
    ∃ capture ∈ captures.entries, capture.hint = some hint := by
  rw [hintsIn] at h
  split at h
  · obtain ⟨index, -, hbind⟩ := List.mem_map.mp h
    obtain ⟨capture, hcapture, hhint⟩ := Option.bind_eq_some_iff.mp hbind
    exact ⟨capture, List.mem_of_getElem? hcapture, hhint⟩
  · cases h

end CaptureList

/-- The query of a style with keys: the keys in front of the values are those in the placeholders,
none of them twice, and they are words exactly if the hints of the parameters are dotted. -/
theorem keys_of_formatQuery {style : ParamStyle} (hstyle : style.container = .mapping)
    {text : String} {captures : CaptureList} {query : RenderedQuery}
    (h : formatQuery text captures style = .ok query) :
    query.query =
        String.ofList (fillMarkers false text.toList (placeholders style 0 query.params.keys)) ∧
      query.params.keys.Nodup ∧
      ((∀ key ∈ query.params.keys, IsWord key) ↔
        ∀ hint, some hint ∈ captures.hintsIn text → IsDotted hint) := by
  obtain ⟨segs, hsegs, hindices⟩ := (exists_formatQuery_eq_ok_iff text).mp ⟨query, h⟩
  obtain ⟨found, hfound⟩ := CaptureList.exists_captures_of_lt hindices
  have hformat := formatQuery_of_segments hsegs hfound style
  simp only at hformat
  generalize hkeys : style.keysFor {} (style.baseKeys 0 (found.map (·.hint))) = keys at hformat
  have hlength : keys.length = found.length := by
    rw [← hkeys, ParamStyle.length_keysFor, ParamStyle.length_baseKeys, List.length_map]
  obtain rfl := Except.ok.inj (hformat.symm.trans h)
  have hparams : (style.params (keys.zip (found.map (·.value)))).keys = keys := by
    rw [ParamStyle.params, hstyle]
    exact List.map_fst_zip (by simp [hlength])
  rw [hparams]
  refine ⟨rfl, hkeys ▸ ParamStyle.nodup_keysFor hstyle _ _, ?_⟩
  rw [CaptureList.hintsIn_of_segments hsegs hfound, ← ParamStyle.isWord_baseKeys_iff hstyle 0,
    ← hkeys, ParamStyle.keysFor, hstyle]
  exact KeyAllocator.isWord_allocateAll_iff (List.forall_mem_nil _) _

/-- A hint that brings more along than a word. -/
example :
    (formatQuery (encodeMarker 0) ⟨[⟨0, some "x OR 1=1", .int 5⟩]⟩ .named).map (·.query) =
      .ok ":x OR 1=1" := by
  decide

end QueryTemplate
