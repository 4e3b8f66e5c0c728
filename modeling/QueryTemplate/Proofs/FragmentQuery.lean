import QueryTemplate.Filter.Builtin
import QueryTemplate.Proofs.Binding
import QueryTemplate.Proofs.Exactness
import QueryTemplate.Proofs.Fragments

/-!
The query of a template without control flow, given the values of its variables: what its tags emit,
the marked text that this makes, and what formatting makes of the marked text.
-/

namespace QueryTemplate

namespace CaptureList

theorem content_extend (c : CaptureList) (bound : List (Option String × Value)) :
    (c.extend bound).entries.map Capture.content =
      c.entries.map Capture.content ++ bound := by
  induction bound generalizing c with
  | nil => exact (List.append_nil _).symm
  | cons b bound ih =>
      obtain ⟨hint, v⟩ := b
      rw [extend_cons, ih]
      simp [push, Capture.content]

end CaptureList

/-- Formatting marked text whose markers stand for the captures one after the other. -/
theorem formatQuery_extend {segs : List Segment} (hwritable : ∀ segment ∈ segs, segment.Writable)
    {bound : List (Option String × Value)}
    (hindices : markerIndices segs = List.range' 0 bound.length) (style : ParamStyle) :
    let keys := style.keysFor {} (style.baseKeys 0 (bound.map (·.1)))
    formatQuery (String.ofList (writeSegments segs)) (({} : CaptureList).extend bound) style =
      .ok ⟨String.ofList (fillSegments segs (placeholders style 0 keys)),
        style.params (keys.zip (bound.map (·.2)))⟩ := by
  have hcontent := CaptureList.content_extend {} bound
  generalize ({} : CaptureList).extend bound = captures at hcontent ⊢
  have hhints : captures.entries.map (·.hint) = bound.map (·.1) := by
    simpa [Function.comp_def, Capture.content] using congrArg (List.map Prod.fst) hcontent
  have hvalues : captures.entries.map (·.value) = bound.map (·.2) := by
    simpa [Function.comp_def, Capture.content] using congrArg (List.map Prod.snd) hcontent
  have hlength : captures.entries.length = bound.length := by
    simpa using congrArg List.length hcontent
  have hfound : (markerIndices (mergeRuns segs)).map captures.get? = captures.entries.map some := by
    have hrange := map_getElem?_range' [] captures.entries []
    rw [List.nil_append, List.append_nil] at hrange
    rw [markerIndices_mergeRuns, hindices, ← hlength]
    exact hrange
  have hsegs : Except.ok (mergeRuns segs) =
      segments (String.ofList (writeSegments segs)).toList := by
    rw [String.toList_ofList, segments_writeSegments hwritable]
  have hformat := formatQuery_of_segments hsegs.symm hfound style
  rw [hhints, hvalues, String.toList_ofList] at hformat
  rw [hformat, fillMarkers_writeSegments hwritable]

/-! ### Quoted names and keys -/

theorem clean_doubleQuotes {quote : Char} (hquote : isReserved quote = false) {segment : List Char}
    (h : Clean segment) : Clean (doubleQuotes quote segment) := by
  intro c hc
  obtain ⟨d, hd, hc⟩ := List.mem_flatMap.mp hc
  split at hc
  · rcases List.mem_cons.mp hc with rfl | hc
    · exact hquote
    · rw [List.mem_singleton.mp hc]
      exact h d hd
  · rw [List.mem_singleton.mp hc]
    exact h d hd

/-- A quoted name has no reserved character, unless the quote is one. -/
theorem hasReserved_of_quoteIdentifier {segment quoted : String} {quote : Option Char}
    (hquote : ∀ c ∈ quote, isReserved c = false) (h : quoteIdentifier segment quote = .ok quoted) :
    hasReserved quoted = false := by
  unfold quoteIdentifier at h
  split at h
  · contradiction
  · split at h
    · contradiction
    · rename_i hsegment
      have hclean : Clean segment.toList := clean_iff.mpr (by simpa using hsegment)
      cases quote with
      | none =>
          simp only at h
          split at h
          · cases h
            exact clean_iff.mp hclean
          · cases h
      | some q =>
          cases h
          have hq : Clean [q] := fun c hc => by
            rw [List.mem_singleton.mp hc]
            exact hquote q rfl
          rw [← clean_iff, String.toList_ofList]
          exact (hq.append (clean_doubleQuotes (hquote q rfl) hclean)).append hq

theorem keyOfHint_of_not_mem {hint : String} (h : '.' ∉ hint.toList) : keyOfHint hint = hint := by
  have hchars : (hint.toList.flatMap fun c => if c == '.' then ['_', '_'] else [c]) =
      hint.toList.flatMap fun c => [c] := by
    refine List.flatMap_congr fun c hc => ?_
    have hne : c ≠ '.' := fun heq => h (heq ▸ hc)
    simp [hne]
  rw [keyOfHint, hchars, List.flatMap_singleton', String.ofList_toList]

theorem keyOfHint_numbered {name : String} (h : '.' ∉ name.toList) (n : Nat) :
    keyOfHint (KeyAllocator.numbered name n) = KeyAllocator.numbered name n := by
  refine keyOfHint_of_not_mem ?_
  rw [KeyAllocator.numbered, String.toList_append, String.toList_append, List.mem_append,
    List.mem_append, not_or, not_or]
  refine ⟨⟨h, by decide⟩, fun hmem => ?_⟩
  exact absurd (isDigit_of_mem_toString hmem) (by decide)

namespace ParamStyle

/-- Parameters with hints ask for the keys that are made of the hints. -/
theorem baseKeys_some (style : ParamStyle) (bound : Nat) (hints : List String) :
    style.baseKeys bound (hints.map some) = hints.map keyOfHint := by
  induction hints generalizing bound with
  | nil => rfl
  | cons hint rest ih =>
      rw [List.map_cons, baseKeys_cons, baseKey_some, ih, List.map_cons]

end ParamStyle

namespace Value

/-- A value without parts: none, a truth value, a number, a string or bytes. -/
def isScalar : Value → Bool
  | none | bool _ | int _ | float _ | str _ | safe _ | bytes _ => true
  | _ => false

end Value

namespace TagKind

/-- The value of a variable is of the kind that the tag is for. -/
inductive Fits (quote : Option Char) : TagKind → Value → Prop
  | plain {v : Value} (hscalar : v.isScalar = true) (hplain : v.isSafe = false) : Fits quote plain v
  | identifier {text quoted : String} (hquoted : quoteIdentifier text quote = .ok quoted) :
    Fits quote identifier (.str text)
  | inclause {items : List Value} (hscalar : ∀ v ∈ items, v.isScalar = true) :
    Fits quote inclause (.list items)

/-- What a tag emits, given the value of its variable. -/
def emission (quote : Option Char) : TagKind → Value → Value
  | .identifier, .str text =>
    match quoteIdentifier text quote with
    | .ok quoted => .safe quoted
    | .error _ => .str text
  | .inclause, .list items => .params items
  | _, v => v

variable {kind : TagKind} {quote : Option Char} {v : Value}

theorem Fits.isUndefined_emission (h : kind.Fits quote v) :
    (kind.emission quote v).isUndefined = false := by
  cases h with
  | @plain v hscalar _ => cases v <;> first | rfl | contradiction
  | identifier hquoted => rw [emission, hquoted]; rfl
  | inclause => rfl

/-- Raw text that a tag emits has no reserved character. -/
theorem Fits.hasReserved_emission (h : kind.Fits quote v)
    (hquote : ∀ c ∈ quote, isReserved c = false) {text : String}
    (htext : kind.emission quote v = .safe text) : hasReserved text = false := by
  cases h with
  | @plain v hscalar hplain =>
      rw [emission] at htext
      · rw [htext] at hplain
        contradiction
      all_goals simp
  | identifier hquoted =>
      rw [emission, hquoted] at htext
      cases htext
      exact hasReserved_of_quoteIdentifier hquote hquoted
  | inclause => cases htext

/-- The parameters a tag asks for, each with the key it begins from. -/
def parameters (name : String) : TagKind → Value → List (String × Value)
  | .plain, v => [(name, v)]
  | .inclause, .list items =>
    (items.zipIdx 1).map fun (v, i) => (KeyAllocator.numbered name i, v)
  | _, _ => []

/-- What stands in the query in place of a tag, given the placeholders of its parameters. -/
def written (quote : Option Char) (placeholders : List String) : TagKind → Value → String
  | .plain, _ => placeholders.headD ""
  | .identifier, .str text =>
    match quoteIdentifier text quote with
    | .ok quoted => quoted
    | .error _ => ""
  | .inclause, _ => "(" ++ String.intercalate ", " placeholders ++ ")"
  | _, _ => ""

/-- There are no dots in a key that a parameter begins from. -/
theorem keyOfHint_of_mem_parameters {name : String} (hname : Text.isIdentifier name.toList = true)
    {b : String × Value} (hb : b ∈ kind.parameters name v) : keyOfHint b.1 = b.1 := by
  have hdot : '.' ∉ name.toList := fun hmem =>
    absurd (Text.isNamePart_of_mem hname hmem) (by decide)
  unfold parameters at hb
  split at hb
  · rw [List.mem_singleton.mp hb]
    exact keyOfHint_of_not_mem hdot
  · obtain ⟨⟨w, i⟩, -, rfl⟩ := List.mem_map.mp hb
    exact keyOfHint_numbered hdot i
  · contradiction

theorem numbered_eq (name : String) (n : Nat) (items : List Value) :
    Emission.numbered (some name) n items =
      (items.zipIdx n).map fun (v, i) => (some (KeyAllocator.numbered name i), v) := by
  induction items generalizing n with
  | nil => rfl
  | cons v rest ih =>
      rw [Emission.numbered, ih, List.zipIdx_cons]
      rfl

/-- What is captured for a tag are its parameters, with the keys as hints. -/
theorem Fits.bound_emission (h : kind.Fits quote v) (name : String) :
    Emission.bound (kind.emission quote v) (some name) =
      (kind.parameters name v).map fun (base, v) => (some base, v) := by
  cases h with
  | @plain v hscalar hplain => cases v <;> first | rfl | contradiction
  | identifier hquoted => rw [emission, hquoted]; rfl
  | @inclause items hscalar =>
      rw [emission, parameters, Emission.bound, numbered_eq, List.map_map]
      rfl

theorem fillSegments_listSegments (start : Nat) (placeholders : List String) :
    fillSegments (Emission.listSegments start placeholders.length) placeholders =
      (String.intercalate ", " placeholders).toList := by
  induction placeholders generalizing start with
  | nil => rfl
  | cons first rest ih =>
      cases rest with
      | nil => simp [Emission.listSegments, fillSegments]
      | cons second rest =>
          have hrest := ih (start + 1)
          rw [List.length_cons] at hrest
          rw [List.length_cons, List.length_cons, Emission.listSegments, fillSegments, fillSegments,
            List.tail_cons, hrest, String.intercalate_cons_cons, String.toList_append,
            String.toList_append, List.append_assoc]
          rfl

theorem Fits.fillSegments_emission (h : kind.Fits quote v) (name : String) (start : Nat)
    {placeholders : List String}
    (hlength : placeholders.length = (kind.parameters name v).length) :
    fillSegments (Emission.segments start (kind.emission quote v)) placeholders =
      (kind.written quote placeholders v).toList := by
  cases h with
  | @plain v hscalar hplain =>
      obtain ⟨placeholder, rfl⟩ := List.length_eq_one_iff.mp hlength
      cases v <;> first | contradiction | simp [emission, Emission.segments, fillSegments, written]
  | identifier hquoted => simp [emission, hquoted, Emission.segments, fillSegments, written]
  | @inclause items hscalar =>
      have hitems : placeholders.length = items.length := by
        simpa [parameters] using hlength
      have hmarkers : (markerIndices (Emission.listSegments start items.length)).length =
          placeholders.length := by
        rw [Emission.markerIndices_listSegments, List.length_range', hitems]
      rw [emission, Emission.segments, fillSegments, fillSegments_append, hmarkers, List.take_length,
        ← hitems, fillSegments_listSegments]
      simp [written, fillSegments]

end TagKind

namespace Fragment

/-- The variables of the tags have values, which fit the tags. -/
def Supplied (quote : Option Char) (value : String → Value) (fragments : List Fragment) : Prop :=
  ∀ kind name, .tag kind name ∈ fragments → kind.Fits quote (value name)

variable (quote : Option Char) (value : String → Value)

/-- What is captured for the tags. -/
def bindings : List Fragment → List (Option String × Value)
  | [] => []
  | .text _ :: rest => bindings rest
  | .tag kind name :: rest =>
    Emission.bound (kind.emission quote (value name)) (some name) ++ bindings rest

/-- The segments of the marked text if `start` values have been captured before. -/
def markedSegments (start : Nat) : List Fragment → List Segment
  | [] => []
  | .text run :: rest => .text run.toList :: markedSegments start rest
  | .tag kind name :: rest =>
    let v := kind.emission quote (value name)
    Emission.segments start v ++
      markedSegments (start + (Emission.bound v (some name)).length) rest

/-- The parameters of a template, each with the key it begins from. -/
def parameters : List Fragment → List (String × Value)
  | [] => []
  | .text _ :: rest => parameters rest
  | .tag kind name :: rest => kind.parameters name (value name) ++ parameters rest

/-- The query of a template, given the placeholders of its parameters. -/
def query : List Fragment → (placeholders : List String) → String
  | [], _ => ""
  | .text run :: rest, placeholders => run ++ query rest placeholders
  | .tag kind name :: rest, placeholders =>
    let count := (kind.parameters name (value name)).length
    kind.written quote (placeholders.take count) (value name) ++ query rest (placeholders.drop count)

variable {quote value} {fragments : List Fragment}

theorem Supplied.tail {fragment : Fragment} (h : Supplied quote value (fragment :: fragments)) :
    Supplied quote value fragments := fun kind name hmem =>
  h kind name (List.mem_cons_of_mem fragment hmem)

theorem bindings_eq (h : Supplied quote value fragments) :
    bindings quote value fragments =
      (parameters value fragments).map fun (base, v) => (some base, v) := by
  induction fragments with
  | nil => rfl
  | cons fragment rest ih =>
      have hrest := ih h.tail
      cases fragment with
      | text run => exact hrest
      | tag kind name =>
          rw [bindings, parameters, List.map_append, hrest,
            (h kind name List.mem_cons_self).bound_emission]

theorem markerIndices_markedSegments (start : Nat) :
    markerIndices (markedSegments quote value start fragments) =
      List.range' start (bindings quote value fragments).length := by
  induction fragments generalizing start with
  | nil => rfl
  | cons fragment rest ih =>
      cases fragment with
      | text run => exact ih start
      | tag kind name =>
          rw [markedSegments, markerIndices_append, ih,
            Emission.markerIndices_segments start _ (some name), List.range'_append_1, bindings,
            List.length_append]

theorem fillSegments_markedSegments (h : Supplied quote value fragments) (start : Nat)
    {placeholders : List String}
    (hlength : placeholders.length = (parameters value fragments).length) :
    fillSegments (markedSegments quote value start fragments) placeholders =
      (query quote value fragments placeholders).toList := by
  induction fragments generalizing start placeholders with
  | nil => rfl
  | cons fragment rest ih =>
      cases fragment with
      | text run =>
          rw [markedSegments, fillSegments, query, String.toList_append, ih h.tail _ hlength]
      | tag kind name =>
          have hfits := h kind name List.mem_cons_self
          rw [parameters, List.length_append] at hlength
          have hmarkers : (markerIndices
              (Emission.segments start (kind.emission quote (value name)))).length =
                (kind.parameters name (value name)).length := by
            rw [Emission.markerIndices_segments start _ (some name), List.length_range',
              hfits.bound_emission, List.length_map]
          rw [markedSegments, fillSegments_append, hmarkers, query, String.toList_append,
            hfits.fillSegments_emission name start (by rw [List.length_take]; omega),
            ih h.tail _ (by rw [List.length_drop]; omega)]

theorem writable_markedSegments (hfragments : ∀ f ∈ fragments, f.WellFormed)
    (h : Supplied quote value fragments) (hquote : ∀ c ∈ quote, isReserved c = false) {start : Nat}
    (hlimit : start + (bindings quote value fragments).length ≤ indexLimit) :
    ∀ segment ∈ markedSegments quote value start fragments, segment.Writable := by
  induction fragments generalizing start with
  | nil => exact fun _ hsegment => absurd hsegment List.not_mem_nil
  | cons fragment rest ih =>
      have hrest (start : Nat)
          (hlimit : start + (bindings quote value rest).length ≤ indexLimit) :
          ∀ segment ∈ markedSegments quote value start rest, segment.Writable :=
        ih (fun f hf => hfragments f (List.mem_cons_of_mem fragment hf)) h.tail hlimit
      intro segment hsegment
      cases fragment with
      | text run =>
          rcases List.mem_cons.mp hsegment with rfl | hsegment
          · exact (hfragments _ List.mem_cons_self).2
          · exact hrest start hlimit segment hsegment
      | tag kind name =>
          rw [bindings, List.length_append] at hlimit
          rcases List.mem_append.mp hsegment with hsegment | hsegment
          · have hemission := h kind name List.mem_cons_self
            have hfirst : start + (Emission.bound (kind.emission quote (value name))
                (some name)).length ≤ indexLimit := by omega
            exact Emission.writable_segments
              (fun text htext => hemission.hasReserved_emission hquote htext) hfirst segment hsegment
          · exact hrest _ (by omega) segment hsegment

theorem keyOfHint_of_mem_parameters (hfragments : ∀ f ∈ fragments, f.WellFormed)
    {b : String × Value} (hb : b ∈ parameters value fragments) : keyOfHint b.1 = b.1 := by
  induction fragments with
  | nil => contradiction
  | cons fragment rest ih =>
      have hrest := ih fun f hf => hfragments f (List.mem_cons_of_mem fragment hf)
      cases fragment with
      | text run => exact hrest hb
      | tag kind name =>
          obtain ⟨hname, -⟩ := hfragments _ List.mem_cons_self
          rcases List.mem_append.mp hb with hb | hb
          · exact TagKind.keyOfHint_of_mem_parameters hname hb
          · exact hrest hb

/-- Formatting the marked text of a template gives its query. -/
theorem formatQuery_markedSegments (hfragments : ∀ f ∈ fragments, f.WellFormed)
    (h : Supplied quote value fragments) (hquote : ∀ c ∈ quote, isReserved c = false)
    (hlimit : (parameters value fragments).length ≤ indexLimit) (style : ParamStyle) :
    let keys := style.keysFor {} ((parameters value fragments).map (·.1))
    formatQuery (String.ofList (writeSegments (markedSegments quote value 0 fragments)))
        (({} : CaptureList).extend (bindings quote value fragments)) style =
      .ok ⟨query quote value fragments (placeholders style 0 keys),
        style.params (keys.zip ((parameters value fragments).map (·.2)))⟩ := by
  have hbindings := bindings_eq h
  have hwritable : ∀ segment ∈ markedSegments quote value 0 fragments, segment.Writable :=
    writable_markedSegments hfragments h hquote (by rwa [hbindings, List.length_map, Nat.zero_add])
  have hformat := formatQuery_extend hwritable (markerIndices_markedSegments 0) style
  have hkeys : style.baseKeys 0 ((bindings quote value fragments).map (·.1)) =
      (parameters value fragments).map (·.1) := by
    have hhints : (bindings quote value fragments).map (·.1) =
        ((parameters value fragments).map (·.1)).map some := by
      rw [hbindings, List.map_map, List.map_map]
      rfl
    rw [hhints, ParamStyle.baseKeys_some, List.map_map]
    exact List.map_congr_left fun b hb => keyOfHint_of_mem_parameters hfragments hb
  have hvalues : (bindings quote value fragments).map (·.2) =
      (parameters value fragments).map (·.2) := by
    rw [hbindings, List.map_map]
    rfl
  rw [hkeys, hvalues] at hformat
  rw [hformat, fillSegments_markedSegments h 0 (by simp [placeholders]), String.ofList_toList]

end Fragment

end QueryTemplate
