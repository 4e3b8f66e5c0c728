import QueryTemplate.Proofs.KeyAllocation

/-!
What formatting makes of marked text: every marker is replaced by a placeholder, everything else
stays, and the captured values are bound in the order of the markers.
-/

namespace QueryTemplate

/-- The indices of the markers among the segments. -/
def markerIndices : List Segment → List Nat
  | [] => []
  | .text _ :: rest => markerIndices rest
  | .marker index :: rest => index :: markerIndices rest

theorem markerIndices_append (segs more : List Segment) :
    markerIndices (segs ++ more) = markerIndices segs ++ markerIndices more := by
  induction segs with
  | nil => rfl
  | cons segment rest ih => cases segment <;> simp [markerIndices, ih]

/-- Replaces each marker of a text by the next of the placeholders. `inside` says whether the text
begins within a marker. -/
def fillMarkers : (inside : Bool) → (text : List Char) → (placeholders : List String) → List Char
  | _, [], _ => []
  | false, c :: text, placeholders =>
    if c = markerOpen then
      (placeholders.headD "").toList ++ fillMarkers true text placeholders.tail
    else c :: fillMarkers false text placeholders
  | true, c :: text, placeholders =>
    if c = markerClose then fillMarkers false text placeholders
    else fillMarkers true text placeholders

/-- The text of segments with placeholders for the markers. -/
def fillSegments : List Segment → (placeholders : List String) → List Char
  | [], _ => []
  | .text run :: rest, placeholders => run ++ fillSegments rest placeholders
  | .marker _ :: rest, placeholders =>
    (placeholders.headD "").toList ++ fillSegments rest placeholders.tail

theorem fillMarkers_clean {run : List Char} (h : Clean run) (text : List Char)
    (placeholders : List String) :
    fillMarkers false (run ++ text) placeholders = run ++ fillMarkers false text placeholders := by
  induction run with
  | nil => rfl
  | cons c run ih =>
      have hc : c ≠ markerOpen := by
        rintro rfl
        exact absurd (h _ List.mem_cons_self) (by decide)
      rw [List.cons_append, fillMarkers, if_neg hc, ih fun d hd => h d (List.mem_cons_of_mem c hd)]
      rfl

theorem fillMarkers_inside {body : List Char} (h : Clean body) (text : List Char)
    (placeholders : List String) :
    fillMarkers true (body ++ markerClose :: text) placeholders =
      fillMarkers false text placeholders := by
  induction body with
  | nil => rw [List.nil_append, fillMarkers, if_pos rfl]
  | cons c body ih =>
      have hc : c ≠ markerClose := by
        rintro rfl
        exact absurd (h _ List.mem_cons_self) (by decide)
      rw [List.cons_append, fillMarkers, if_neg hc, ih fun d hd => h d (List.mem_cons_of_mem c hd)]

theorem fillMarkers_writeSegments {segs : List Segment} (h : ∀ segment ∈ segs, segment.Writable)
    (placeholders : List String) :
    fillMarkers false (writeSegments segs) placeholders = fillSegments segs placeholders := by
  induction segs generalizing placeholders with
  | nil => rfl
  | cons segment rest ih =>
      have hrest := ih fun s hs => h s (List.mem_cons_of_mem segment hs)
      cases segment with
      | text run =>
          have hrun : Clean run := h _ List.mem_cons_self
          rw [writeSegments, fillMarkers_clean hrun, hrest, fillSegments]
      | marker index =>
          rw [writeSegments, toList_encodeMarker, List.cons_append, List.append_assoc,
            List.singleton_append, fillMarkers, if_pos rfl, fillMarkers_inside (clean_toString index),
            hrest, fillSegments]

/-- The placeholders are used up from left to right. -/
theorem fillSegments_append (segs more : List Segment) (placeholders : List String) :
    fillSegments (segs ++ more) placeholders =
      fillSegments segs (placeholders.take (markerIndices segs).length) ++
        fillSegments more (placeholders.drop (markerIndices segs).length) := by
  induction segs generalizing placeholders with
  | nil => rfl
  | cons segment rest ih =>
      cases segment with
      | text run => rw [List.cons_append, fillSegments, ih, fillSegments, List.append_assoc]; rfl
      | marker index =>
          rw [List.cons_append, fillSegments, ih, fillSegments, List.append_assoc]
          cases placeholders <;> simp [markerIndices]

theorem count_markerOpen_of_clean {run : List Char} (h : Clean run) : run.count markerOpen = 0 :=
  List.count_eq_zero.mpr fun hmem => absurd (h _ hmem) (by decide)

@[simp] theorem markerIndices_consRun (run : List Char) (segs : List Segment) :
    markerIndices (consRun run segs) = markerIndices segs := by
  rw [consRun]
  split
  · rfl
  · rfl

@[simp] theorem fillSegments_consRun (run : List Char) (segs : List Segment)
    (placeholders : List String) :
    fillSegments (consRun run segs) placeholders = run ++ fillSegments segs placeholders := by
  cases run with
  | nil => rfl
  | cons c run => rfl

theorem ReadAs.count_markerOpen {text : List Char} {segs : List Segment} (h : ReadAs text segs) :
    text.count markerOpen = (markerIndices segs).length := by
  induction h with
  | run hrun => rw [count_markerOpen_of_clean hrun, markerIndices_consRun, markerIndices,
      List.length_nil]
  | marker hrun hindex _ ih =>
      have hbody := count_markerOpen_of_clean (clean_of_markerIndex? hindex)
      rw [List.count_append, List.count_cons_self, List.count_append,
        List.count_cons_of_ne (by decide), count_markerOpen_of_clean hrun, hbody, ih,
        markerIndices_consRun, markerIndices, List.length_cons]
      omega

theorem ReadAs.fillMarkers_eq {text : List Char} {segs : List Segment} (h : ReadAs text segs)
    (placeholders : List String) :
    fillMarkers false text placeholders = fillSegments segs placeholders := by
  induction h generalizing placeholders with
  | @run run hrun =>
      have hfill := fillMarkers_clean hrun [] placeholders
      rw [List.append_nil] at hfill
      rw [hfill, fillSegments_consRun]
      rfl
  | marker hrun hindex _ ih =>
      rw [fillMarkers_clean hrun, fillMarkers, if_pos rfl,
        fillMarkers_inside (clean_of_markerIndex? hindex), ih, fillSegments_consRun, fillSegments]

theorem markerIndices_mergeRun (run : List Char) (segs : List Segment) :
    markerIndices (mergeRun run segs) = markerIndices segs := by
  unfold mergeRun
  split
  · rfl
  · exact markerIndices_consRun run segs

@[simp] theorem markerIndices_mergeRuns (segs : List Segment) :
    markerIndices (mergeRuns segs) = markerIndices segs := by
  induction segs with
  | nil => rfl
  | cons segment rest ih =>
      cases segment with
      | text run => rw [mergeRuns, markerIndices_mergeRun, ih, markerIndices]
      | marker index => rw [mergeRuns, markerIndices, markerIndices, ih]

theorem count_markerOpen {segs : List Segment} (h : ∀ segment ∈ segs, segment.Writable) :
    (writeSegments segs).count markerOpen = (markerIndices segs).length := by
  rw [(readAs_of_segments (segments_writeSegments h)).count_markerOpen, markerIndices_mergeRuns]

/-! ### Formatting segments -/

/-- The placeholders of parameters with the given keys, of which `bound` others stand in front. -/
def placeholders (style : ParamStyle) (bound : Nat) (keys : List String) : List String :=
  (keys.zipIdx (bound + 1)).map fun (key, position) => style.placeholder key position

theorem placeholders_cons (style : ParamStyle) (bound : Nat) (key : String) (keys : List String) :
    placeholders style bound (key :: keys) =
      style.placeholder key (bound + 1) :: placeholders style (bound + 1) keys := by
  rw [placeholders, List.zipIdx_cons]
  rfl

namespace ParamStyle

/-- The key that the parameter at a position asks for: its hint, or a name made of the position. -/
def baseKey (style : ParamStyle) (position : Nat) (hint : Option String) : String :=
  match hint, style.container with
  | some hint, _ => keyOfHint hint
  | none, .mapping => "param_" ++ toString position
  | none, .sequence => toString position

@[simp] theorem baseKey_some (style : ParamStyle) (position : Nat) (hint : String) :
    style.baseKey position (some hint) = keyOfHint hint := rfl

theorem baseKey_of_mapping {style : ParamStyle} (h : style.container = .mapping) (position : Nat) :
    style.baseKey position none = "param_" ++ toString position := by
  simp only [baseKey, h]

theorem baseKey_of_sequence {style : ParamStyle} (h : style.container = .sequence)
    (position : Nat) : style.baseKey position none = toString position := by
  simp only [baseKey, h]

/-- The keys that parameters with the given hints ask for, of which `bound` others stand in
front. -/
def baseKeys (style : ParamStyle) (bound : Nat) (hints : List (Option String)) : List String :=
  (hints.zipIdx (bound + 1)).map fun (hint, position) => style.baseKey position hint

theorem baseKeys_cons (style : ParamStyle) (bound : Nat) (hint : Option String)
    (hints : List (Option String)) :
    style.baseKeys bound (hint :: hints) =
      style.baseKey (bound + 1) hint :: style.baseKeys (bound + 1) hints := by
  rw [baseKeys, List.zipIdx_cons]
  rfl

@[simp] theorem length_baseKeys (style : ParamStyle) (bound : Nat) (hints : List (Option String)) :
    (style.baseKeys bound hints).length = hints.length := by
  simp [baseKeys]

theorem getElem?_baseKeys (style : ParamStyle) {hints : List (Option String)} {k : Nat}
    {hint : Option String} (h : hints[k]? = some hint) :
    (style.baseKeys 0 hints)[k]? = some (style.baseKey (k + 1) hint) := by
  simp [baseKeys, h, Nat.add_comm]

/-- The keys that parameters get which ask for the given ones. A mapping has each key once. -/
def keysFor (style : ParamStyle) (keys : KeyAllocator) (bases : List String) : List String :=
  match style.container with
  | .mapping => keys.allocateAll bases
  | .sequence => bases

@[simp] theorem length_keysFor (style : ParamStyle) (keys : KeyAllocator) (bases : List String) :
    (style.keysFor keys bases).length = bases.length := by
  rw [keysFor]
  cases style.container with
  | mapping => exact keys.length_allocateAll bases
  | sequence => rfl

/-- The parameters for a style. -/
def params (style : ParamStyle) (bound : List (String × Value)) : Params :=
  match style.container with
  | .mapping => .named bound
  | .sequence => .positional (bound.map (·.2))

theorem values_params (style : ParamStyle) (bound : List (String × Value)) :
    (style.params bound).values = bound.map (·.2) := by
  rw [params]
  cases style.container with
  | mapping => rfl
  | sequence => rfl

end ParamStyle

/-- The keys of parameters that are handed over as a mapping. -/
def Params.keys : Params → List String
  | named entries => entries.map (·.1)
  | positional _ => []

theorem bindKey_of_not_mem {key : String} {bound : List (String × Value)}
    (h : key ∉ bound.map (·.1)) (v : Value) : bindKey key v bound = bound ++ [(key, v)] := by
  induction bound with
  | nil => rfl
  | cons entry rest ih =>
      obtain ⟨k, w⟩ := entry
      rw [List.map_cons, List.mem_cons, not_or] at h
      rw [bindKey, if_neg fun hk => h.1 hk.symm, ih h.2, List.cons_append]

namespace CaptureList

theorem get?_of_values {captures : CaptureList} {index : Nat} {v : Value}
    (h : captures.values[index]? = some v) :
    ∃ capture, captures.get? index = some capture ∧ capture.value = v := by
  rw [values, List.getElem?_map, Option.map_eq_some_iff] at h
  exact h

/-- Indices of captured values are indices of captures with these values. -/
theorem exists_captures_of_values {captures : CaptureList} {indices : List Nat}
    {values : List Value} (h : indices.map (captures.values[·]?) = values.map some) :
    ∃ found : List Capture,
      indices.map captures.get? = found.map some ∧ found.map (·.value) = values := by
  induction indices generalizing values with
  | nil =>
      cases values with
      | nil => exact ⟨[], rfl, rfl⟩
      | cons v values => cases h
  | cons index rest ih =>
      cases values with
      | nil => cases h
      | cons v values =>
          obtain ⟨hv, hrest⟩ := List.cons.inj h
          obtain ⟨capture, hcapture, rfl⟩ := get?_of_values hv
          obtain ⟨found, hfound, rfl⟩ := ih hrest
          refine ⟨capture :: found, ?_, rfl⟩
          rw [List.map_cons, List.map_cons, hfound, hcapture]

end CaptureList

namespace Formatted

open ParamStyle

variable {style : ParamStyle}

/-- Every key that is bound in a mapping was handed out. -/
def Coherent (style : ParamStyle) (f : Formatted) : Prop :=
  style.container = .mapping → ∀ key ∈ f.bound.map (·.1), key ∈ f.keys.taken

/-- What was formatted, followed by a placeholder for a key and a value. -/
def extend (style : ParamStyle) (key : String) (keys : KeyAllocator) (v : Value) (f : Formatted) :
    Formatted :=
  ⟨f.query ++ style.placeholder key (f.bound.length + 1), keys, f.bound ++ [(key, v)]⟩

/-- In a mapping a new key is handed out, so that no entry is overwritten. -/
theorem bind_of_mapping (hkind : style.container = .mapping) {f : Formatted} (hf : f.Coherent style)
    (capture : Capture) :
    let allocated := f.keys.allocate (style.baseKey (f.bound.length + 1) capture.hint)
    f.bind style capture = f.extend style allocated.1 allocated.2 capture.value := by
  intro allocated
  have hkey : allocated.1 ∉ f.bound.map (·.1) := fun hmem =>
    (f.keys.allocate_derivedFrom _).not_mem (hf hkind _ hmem)
  have happend := bindKey_of_not_mem hkey capture.value
  obtain ⟨position, hint, v⟩ := capture
  cases hint with
  | none =>
      simp only [allocated, baseKey_of_mapping hkind] at happend ⊢
      simp only [bind, extend, hkind, happend]
  | some hint =>
      simp only [allocated, baseKey_some] at happend ⊢
      simp only [bind, extend, hkind, happend]

theorem bind_of_sequence (hkind : style.container = .sequence) (f : Formatted)
    (capture : Capture) :
    f.bind style capture =
      f.extend style (style.baseKey (f.bound.length + 1) capture.hint) f.keys capture.value := by
  obtain ⟨position, hint, v⟩ := capture
  cases hint with
  | none => simp only [bind, extend, hkind, baseKey_of_sequence hkind]
  | some hint => simp only [bind, extend, hkind, baseKey_some]

/-- Binding extends what was formatted by the first of the keys that are handed out. -/
theorem exists_bind_eq {f : Formatted} (hf : f.Coherent style) (capture : Capture) :
    ∃ key keys, f.bind style capture = f.extend style key keys capture.value ∧
      (f.bind style capture).Coherent style ∧
      ∀ bases, style.keysFor f.keys (style.baseKey (f.bound.length + 1) capture.hint :: bases) =
        key :: style.keysFor keys bases := by
  cases hkind : style.container with
  | mapping =>
      refine ⟨_, _, bind_of_mapping hkind hf capture, fun _ key hkey => ?_, fun bases => ?_⟩
      · rw [bind_of_mapping hkind hf capture] at hkey ⊢
        rw [extend, List.map_append, List.mem_append] at hkey
        rw [extend, KeyAllocator.taken_allocate]
        rcases hkey with hkey | hkey
        · exact List.mem_cons_of_mem _ (hf hkind key hkey)
        · rw [List.mem_singleton.mp hkey]
          exact List.mem_cons_self
      · rw [ParamStyle.keysFor, hkind, ParamStyle.keysFor, hkind]
        rfl
  | sequence =>
      refine ⟨_, _, bind_of_sequence hkind f capture, fun hmapping => ?_, fun bases => ?_⟩
      · rw [hkind] at hmapping
        contradiction
      · rw [ParamStyle.keysFor, hkind, ParamStyle.keysFor, hkind]

end Formatted

variable {captures : CaptureList} {style : ParamStyle}

/-- Segments whose markers have captures are formatted, whatever was formatted before. -/
theorem formatSegments_eq {segs : List Segment} {found : List Capture}
    (h : (markerIndices segs).map captures.get? = found.map some) {f : Formatted}
    (hf : f.Coherent style) :
    let keys := style.keysFor f.keys (style.baseKeys f.bound.length (found.map (·.hint)))
    ∃ allocated, formatSegments captures style segs f =
      .ok ⟨f.query ++ String.ofList (fillSegments segs (placeholders style f.bound.length keys)),
        allocated, f.bound ++ keys.zip (found.map (·.value))⟩ := by
  induction segs generalizing found f with
  | nil =>
      cases found with
      | nil => exact ⟨f.keys, by simp [formatSegments, fillSegments]⟩
      | cons capture found => cases h
  | cons segment rest ih =>
      cases segment with
      | text run =>
          obtain ⟨allocated, hformat⟩ :=
            ih h (f := { f with query := f.query ++ String.ofList run }) hf
          refine ⟨allocated, ?_⟩
          rw [formatSegments, hformat, fillSegments, String.ofList_append, String.append_assoc]
      | marker index =>
          cases found with
          | nil => cases h
          | cons capture found =>
              obtain ⟨hcapture, hrest⟩ := List.cons.inj h
              -- The capture takes one key, and leaves a state from which the others take theirs.
              obtain ⟨key, keys, hbind, hcoherent, hkeys⟩ := Formatted.exists_bind_eq hf capture
              obtain ⟨allocated, hformat⟩ := ih hrest hcoherent
              refine ⟨allocated, ?_⟩
              rw [List.map_cons, ParamStyle.baseKeys_cons, hkeys, placeholders_cons]
              simp only [formatSegments, hcapture, hformat]
              simp only [hbind, Formatted.extend, fillSegments, List.headD_cons, List.tail_cons,
                String.ofList_append, String.ofList_toList, String.append_assoc, List.map_cons, List.zip_cons_cons,
                List.append_assoc, List.singleton_append, List.length_append, List.length_singleton]

/-- What a text is formatted to that reads as segments whose markers have captures. -/
theorem formatQuery_of_segments {text : String} {segs : List Segment}
    (hsegs : segments text.toList = .ok segs) {found : List Capture}
    (h : (markerIndices segs).map captures.get? = found.map some) (style : ParamStyle) :
    let keys := style.keysFor {} (style.baseKeys 0 (found.map (·.hint)))
    formatQuery text captures style =
      .ok ⟨String.ofList (fillMarkers false text.toList (placeholders style 0 keys)),
        style.params (keys.zip (found.map (·.value)))⟩ := by
  intro keys
  have hempty : ({} : Formatted).Coherent style := fun _ key hkey => absurd hkey List.not_mem_nil
  obtain ⟨allocated, hformat⟩ := formatSegments_eq h hempty
  rw [formatQuery, hsegs, (readAs_of_segments hsegs).fillMarkers_eq]
  simp only [hformat, Formatted.finish, ParamStyle.params, String.empty_append, List.nil_append]
  cases style.container <;> rfl

/-- Formatting marked text whose markers have captured values. -/
theorem formatQuery_of_writeSegments {segs : List Segment}
    (hwritable : ∀ segment ∈ segs, segment.Writable) {values : List Value}
    (hvalues : (markerIndices segs).map (captures.values[·]?) = values.map some) {text : String}
    (htext : text.toList = writeSegments segs) (style : ParamStyle) :
    ∃ keys, keys.length = values.length ∧
      formatQuery text captures style =
        .ok ⟨String.ofList (fillMarkers false text.toList (placeholders style 0 keys)),
          style.params (keys.zip values)⟩ := by
  obtain ⟨found, hfound, rfl⟩ := CaptureList.exists_captures_of_values hvalues
  have hsegs : segments text.toList = .ok (mergeRuns segs) := by
    rw [htext, segments_writeSegments hwritable]
  rw [← markerIndices_mergeRuns] at hfound
  exact ⟨_, by simp, formatQuery_of_segments hsegs hfound style⟩

end QueryTemplate
