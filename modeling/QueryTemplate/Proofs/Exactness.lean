import QueryTemplate.Proofs.Formatting

/-!
Formatting is exact. It succeeds on the texts that read as segments with captures for all of their
markers and on no others; a query has one parameter and one placeholder for each marker, in the
order of the markers; and captures that no marker refers to do not matter.
-/

namespace QueryTemplate

/-- The hint and the value of a capture. -/
def Capture.content (c : Capture) : Option String × Value :=
  (c.hint, c.value)

namespace CaptureList

variable {captures : CaptureList}

theorem get?_isSome_iff {index : Nat} :
    (captures.get? index).isSome = true ↔ index < captures.length := by
  rw [get?, isSome_getElem?, length]

theorem exists_captures_of_lt {indices : List Nat} (h : ∀ index ∈ indices, index < captures.length) :
    ∃ found : List Capture, indices.map captures.get? = found.map some := by
  induction indices with
  | nil => exact ⟨[], rfl⟩
  | cons index rest ih =>
      obtain ⟨found, hfound⟩ := ih fun i hi => h i (List.mem_cons_of_mem index hi)
      obtain ⟨capture, hcapture⟩ := Option.isSome_iff_exists.mp
        (get?_isSome_iff.mpr (h index List.mem_cons_self))
      exact ⟨capture :: found, by rw [List.map_cons, hcapture, hfound, List.map_cons]⟩

end CaptureList

variable {captures : CaptureList} {style : ParamStyle}

theorem lt_length_of_formatSegments {segs : List Segment} {f g : Formatted}
    (h : formatSegments captures style segs f = .ok g) :
    ∀ index ∈ markerIndices segs, index < captures.length := by
  induction segs generalizing f with
  | nil => exact fun _ hindex => absurd hindex List.not_mem_nil
  | cons segment rest ih =>
      cases segment with
      | text run => exact ih h
      | marker index =>
          rw [formatSegments] at h
          split at h
          · rename_i capture hcapture
            intro i hi
            rcases List.mem_cons.mp hi with rfl | hi
            · exact CaptureList.get?_isSome_iff.mp (Option.isSome_iff_exists.mpr ⟨capture, hcapture⟩)
            · exact ih h i hi
          · contradiction

/-- Formatting succeeds on texts that are marked text for these captures, and only on those. -/
theorem exists_formatQuery_eq_ok_iff (text : String) :
    (∃ query, formatQuery text captures style = .ok query) ↔
      ∃ segs, segments text.toList = .ok segs ∧
        ∀ index ∈ markerIndices segs, index < captures.length := by
  constructor
  · rintro ⟨query, h⟩
    rw [formatQuery] at h
    split at h
    · contradiction
    · rename_i segs hsegs
      split at h
      · rename_i f hformat
        exact ⟨segs, hsegs, lt_length_of_formatSegments hformat⟩
      · contradiction
  · rintro ⟨segs, hsegs, hindices⟩
    obtain ⟨found, hfound⟩ := CaptureList.exists_captures_of_lt hindices
    exact ⟨_, formatQuery_of_segments hsegs hfound style⟩

/-! ### Captures without markers -/

theorem Formatted.bind_congr {capture capture' : Capture} (h : capture.content = capture'.content)
    (f : Formatted) : f.bind style capture = f.bind style capture' := by
  obtain ⟨hhint, hvalue⟩ : capture.hint = capture'.hint ∧ capture.value = capture'.value :=
    Prod.mk.inj h
  simp only [bind, hhint, hvalue]

theorem formatSegments_congr {captures' : CaptureList} (hlength : captures'.length = captures.length)
    {segs : List Segment}
    (h : ∀ index ∈ markerIndices segs,
      (captures'.get? index).map Capture.content = (captures.get? index).map Capture.content)
    (f : Formatted) :
    formatSegments captures' style segs f = formatSegments captures style segs f := by
  induction segs generalizing f with
  | nil => rfl
  | cons segment rest ih =>
      cases segment with
      | text run => exact ih h _
      | marker index =>
          have hindex := h index List.mem_cons_self
          have hrest := ih fun i hi => h i (List.mem_cons_of_mem index hi)
          rw [formatSegments, formatSegments]
          cases hget : captures.get? index with
          | none =>
              rw [hget, Option.map_none, Option.map_eq_none_iff] at hindex
              rw [hindex, hlength]
          | some capture =>
              rw [hget, Option.map_some, Option.map_eq_some_iff] at hindex
              obtain ⟨capture', hget', hcontent⟩ := hindex
              rw [hget']
              simp only
              rw [Formatted.bind_congr hcontent, hrest]

/-- The captures that markers refer to decide the result. -/
theorem formatQuery_congr {captures' : CaptureList} (hlength : captures'.length = captures.length)
    {text : String}
    (h : ∀ segs, segments text.toList = .ok segs → ∀ index ∈ markerIndices segs,
      (captures'.get? index).map Capture.content = (captures.get? index).map Capture.content) :
    formatQuery text captures' style = formatQuery text captures style := by
  rw [formatQuery, formatQuery]
  cases hsegs : segments text.toList with
  | error e => rfl
  | ok segs =>
      simp only
      rw [formatSegments_congr hlength (h segs hsegs)]

/-! ### Keys -/

namespace ParamStyle

open KeyAllocator

theorem nodup_keysFor (h : style.container = .mapping) (keys : KeyAllocator)
    (bases : List String) : (style.keysFor keys bases).Nodup := by
  rw [keysFor, h]
  exact keys.nodup_allocateAll bases

/-- How the key of a parameter comes from its base, given the keys of the parameters in front of
it: in a mapping it is a new key, in a sequence the base. -/
def KeyOf (style : ParamStyle) (earlier : List String) (base key : String) : Prop :=
  match style.container with
  | .mapping => DerivedFrom earlier base key
  | .sequence => key = base

theorem keysFor_keyOf {bases : List String} {k : Nat} {base key : String}
    (hbase : bases[k]? = some base) (hkey : (style.keysFor {} bases)[k]? = some key) :
    style.KeyOf ((style.keysFor {} bases).take k) base key := by
  rw [KeyOf]
  rw [keysFor] at hkey ⊢
  cases hkind : style.container with
  | mapping =>
      simp only [hkind] at hkey ⊢
      have hderived := allocateAll_derivedFrom {} bases hbase hkey
      rw [DerivedFrom, List.append_nil] at hderived
      simpa only [DerivedFrom, List.mem_reverse] using hderived
  | sequence =>
      simp only [hkind, hbase, Option.some.injEq] at hkey
      exact hkey.symm

end ParamStyle

/-- The query is the formatted text, given the indices of the markers in it and the keys of the
parameters. -/
structure ExactlyFormats (text : List Char) (captures : CaptureList) (style : ParamStyle)
    (indices : List Nat) (keys : List String) (query : RenderedQuery) : Prop where
  markers : text.count markerOpen = indices.length
  keys_length : keys.length = indices.length
  params_length : query.params.length = indices.length
  /-- The parameters are the captured values, in the order of the markers. -/
  value : ∀ k index, indices[k]? = some index →
    ∃ capture, captures.get? index = some capture ∧ query.params.getIndex? k = some capture.value
  /-- The values are bound under the keys if the style asks for a mapping. -/
  params : query.params = style.params (keys.zip query.params.values)
  /-- No entry of a mapping takes the place of another one. -/
  keys_nodup : style.container = .mapping → keys.Nodup
  key : ∀ k index capture, indices[k]? = some index → captures.get? index = some capture →
    ∃ key, keys[k]? = some key ∧
      style.KeyOf (keys.take k) (style.baseKey (k + 1) capture.hint) key
  query : query.query = String.ofList (fillMarkers false text (placeholders style 0 keys))

namespace CaptureList

theorem getElem?_of_captures {indices : List Nat} {found : List Capture}
    (h : indices.map captures.get? = found.map some) {k index : Nat}
    (hindex : indices[k]? = some index) :
    ∃ capture, captures.get? index = some capture ∧ found[k]? = some capture := by
  have hk := congrArg (·[k]?) h
  simp only [List.getElem?_map, hindex, Option.map_some] at hk
  obtain ⟨capture, hcapture, heq⟩ := Option.map_eq_some_iff.mp hk.symm
  exact ⟨capture, heq.symm, hcapture⟩

end CaptureList

theorem Params.length_values (params : Params) : params.values.length = params.length := by
  cases params with
  | named entries => exact List.length_map _
  | positional values => rfl

theorem exactlyFormats_of_segments {text : String} {segs : List Segment} {query : RenderedQuery}
    (hsegs : segments text.toList = .ok segs)
    (hquery : formatQuery text captures style = .ok query) :
    ∃ keys, ExactlyFormats text.toList captures style (markerIndices segs) keys query := by
  obtain ⟨segs', hsegs', hindices⟩ := (exists_formatQuery_eq_ok_iff text).mp ⟨query, hquery⟩
  obtain rfl : segs' = segs := Except.ok.inj (hsegs'.symm.trans hsegs)
  obtain ⟨found, hfound⟩ := CaptureList.exists_captures_of_lt hindices
  have hlength : (markerIndices segs').length = found.length := by
    simpa using congrArg List.length hfound
  have hformat := formatQuery_of_segments hsegs hfound style
  simp only at hformat
  -- From here on the keys are known only by what the style promises of them.
  generalize hkeys : style.keysFor {} (style.baseKeys 0 (found.map (·.hint))) = keys at hformat
  have hkeylength : keys.length = found.length := by
    rw [← hkeys, ParamStyle.length_keysFor, ParamStyle.length_baseKeys, List.length_map]
  obtain rfl := Except.ok.inj (hformat.symm.trans hquery)
  have hvalues : (style.params (keys.zip (found.map (·.value)))).values = found.map (·.value) := by
    rw [ParamStyle.values_params]
    exact List.map_snd_zip (by simp [hkeylength])
  refine ⟨keys, ?_, ?_, ?_, fun k index hindex => ?_, ?_, fun hkind => ?_,
    fun k index capture hindex hcapture => ?_, rfl⟩
  · exact (readAs_of_segments hsegs).count_markerOpen
  · rw [hkeylength, hlength]
  · rw [hlength, ← Params.length_values, hvalues, List.length_map]
  · obtain ⟨capture, hcapture, hk⟩ := CaptureList.getElem?_of_captures hfound hindex
    refine ⟨capture, hcapture, ?_⟩
    rw [Params.getIndex?, hvalues, List.getElem?_map, hk, Option.map_some]
  · rw [hvalues]
  · rw [← hkeys]
    exact ParamStyle.nodup_keysFor hkind _ _
  · obtain ⟨capture', hcapture', hk⟩ := CaptureList.getElem?_of_captures hfound hindex
    obtain rfl : capture' = capture := Option.some.inj (hcapture'.symm.trans hcapture)
    have hbase : (style.baseKeys 0 (found.map (·.hint)))[k]? =
        some (style.baseKey (k + 1) capture'.hint) :=
      style.getElem?_baseKeys (by rw [List.getElem?_map, hk, Option.map_some])
    have hlt : k < keys.length := by
      rw [hkeylength]
      exact (List.getElem?_eq_some_iff.mp hk).1
    refine ⟨keys[k], List.getElem?_eq_getElem hlt, ?_⟩
    have hkey : keys[k]? = some keys[k] := List.getElem?_eq_getElem hlt
    generalize keys[k] = key at hkey ⊢
    rw [← hkeys] at hkey ⊢
    exact ParamStyle.keysFor_keyOf hbase hkey

/-- For every text, every list of captures and every style: formatting succeeds on marked text whose
markers all have captures, and on nothing else; what it makes of a text is determined by the markers
in it; and captures that no marker refers to have no part in it. -/
theorem formatQuery_exact (text : String) (captures : CaptureList) (style : ParamStyle) :
    ((∃ query, formatQuery text captures style = .ok query) ↔
      ∃ segs, segments text.toList = .ok segs ∧
        ∀ index ∈ markerIndices segs, index < captures.length) ∧
    (∀ segs query, segments text.toList = .ok segs → formatQuery text captures style = .ok query →
      ∃ keys, ExactlyFormats text.toList captures style (markerIndices segs) keys query) ∧
    ∀ captures' : CaptureList, captures'.length = captures.length →
      (∀ segs, segments text.toList = .ok segs → ∀ index ∈ markerIndices segs,
        (captures'.get? index).map Capture.content = (captures.get? index).map Capture.content) →
      formatQuery text captures' style = formatQuery text captures style :=
  ⟨exists_formatQuery_eq_ok_iff text, fun _ _ hsegs hquery => exactlyFormats_of_segments hsegs hquery,
    fun _ hlength hcontent => formatQuery_congr hlength hcontent⟩

/-- A hint that looks like a numbered key, dots in a hint, a missing hint and a marker that is used
twice. -/
example :
    (formatQuery (String.join [encodeMarker 0, ",", encodeMarker 1, ",", encodeMarker 1, ",",
        encodeMarker 3, ",", encodeMarker 4])
      ⟨[⟨0, some "a_1", .int 5⟩, ⟨1, some "a", .int 6⟩, ⟨2, some "a", .int 7⟩,
        ⟨3, some "b.c", .int 8⟩, ⟨4, none, .int 9⟩]⟩ .named).map
      (fun query => (query.query, query.params.keys)) =
      .ok (":a_1,:a,:a_2,:b__c,:param_5", ["a_1", "a", "a_2", "b__c", "param_5"]) := by
  decide

end QueryTemplate
