import QueryTemplate.Engine
import QueryTemplate.Proofs.Awaiting
import QueryTemplate.Proofs.Exactness

/-!
What the parameter style decides: the placeholders and the container of the parameters. Two renders
that differ in the style alone fail with the same error, or they come to queries with the same text
around their placeholders and the same values in the same order, unless a filter asks for the style.
-/

namespace QueryTemplate

variable {ω : Type}

/-- The filter does not ask which parameter style the render has. -/
def Filter.IgnoresStyle : Filter ω → Prop
  | sync run => ∀ (scope : FilterScope) style input args w,
      run { scope with paramStyle := style } input args w = run scope input args w
  | async start => ∀ (scope : FilterScope) style input args w,
      start { scope with paramStyle := style } input args w = start scope input args w

/-- No filter asks which parameter style the render has. -/
def FilterRegistry.IgnoresStyle (r : FilterRegistry ω) : Prop :=
  ∀ name filter, r.resolve name = .ok filter → filter.IgnoresStyle

def RenderOptions.withStyle (style : ParamStyle) (options : RenderOptions) : RenderOptions :=
  { options with paramStyle := style }

/-! ### Passes -/

namespace PassScope

variable {α : Type} {p : PassScope ω}

/-- The pass with another parameter style. -/
def withStyle (style : ParamStyle) (p : PassScope ω) : PassScope ω :=
  { p with options := p.options.withStyle style }

theorem callSync_withStyle (style : ParamStyle) (name : String)
    {run : FilterScope → Classified → List Value → ω → Except FilterError Classified × ω}
    (h : (Filter.sync run).IgnoresStyle) (input : Classified) (args : List Value)
    (s : PassState ω) :
    (p.withStyle style).callSync name run input args s = p.callSync name run input args s := by
  have hrun (s : PassState ω) :
      (p.withStyle style).runSync run input args s = p.runSync run input args s := by
    have hsame := h p.filterScope style input args s.world
    rw [runSync, runSync, ← hsame]
    rfl
  simp only [callSync, hrun]
  rfl

theorem callAsync_withStyle (style : ParamStyle) (name : String)
    {start : FilterScope → Classified → List Value → ω → Future ω Classified × ω}
    (h : (Filter.async start).IgnoresStyle) (input : Classified) (args : List Value)
    (s : PassState ω) :
    (p.withStyle style).callAsync name start input args s =
      p.callAsync name start input args s := by
  have hsame (w : ω) : start (p.withStyle style).filterScope input args w =
      start p.filterScope input args w := h p.filterScope style input args w
  simp only [callAsync, hsame]
  rfl

theorem call_withStyle (h : p.registry.IgnoresStyle) (style : ParamStyle) (name : String)
    (input : Value) (args : List Value) (s : PassState ω) :
    (p.withStyle style).call name input args s = p.call name input args s := by
  rw [call, call]
  cases s.isSuspended with
  | true => rfl
  | false =>
      rw [show (p.withStyle style).registry = p.registry from rfl]
      cases hfilter : p.registry.resolve name with
      | error e => rfl
      | ok filter =>
          have hignores := h name filter hfilter
          cases filter with
          | sync run => exact callSync_withStyle style name hignores _ _ _
          | async start => exact callAsync_withStyle style name hignores _ _ _

/-- A program does not learn which style the pass has. -/
theorem run_withStyle (h : p.registry.IgnoresStyle) (style : ParamStyle)
    (program : Template.Program α) (s : PassState ω) :
    (p.withStyle style).run program s = p.run program s := by
  induction program generalizing s with
  | done a => rfl
  | lookup name next ih => exact ih _ _
  | call name input args next ih =>
      rw [run_call, run_call, call_withStyle h]
      rcases p.call name input args s with ⟨_ | v, t⟩
      · rfl
      · exact ih v t
  | emit v hint next ih =>
      rw [run_emit, run_emit]
      rcases s.emit v hint with ⟨_ | text, t⟩
      · rfl
      · exact ih text t
  | read object attr next ih => exact ih _ _

theorem outcome_withStyle (h : p.registry.IgnoresStyle) (style : ParamStyle)
    (program : RenderProgram) (s : PassState ω) :
    (p.withStyle style).outcome program s = p.outcome program s := by
  rw [outcome, outcome, run_withStyle h]

end PassScope

/-! ### Renders up to the markers -/

section

variable {program : RenderProgram} {registry : FilterRegistry ω} {context : Context ω}
  {options : RenderOptions}

theorem Replay.advance_withStyle (h : registry.IgnoresStyle) (style : ParamStyle) (r : Replay ω) :
    r.advance program registry context (options.withStyle style) =
      r.advance program registry context options := by
  have houtcome := PassScope.outcome_withStyle h style program
    (p := ⟨registry, context, options, .suspending, r.resolutions⟩)
    ⟨{}, none, none, 0, 0, r.outputs, r.world⟩
  rw [PassScope.withStyle] at houtcome
  rw [advance, advance]
  simp only [houtcome]

theorem Replay.run_withStyle (h : registry.IgnoresStyle) (style : ParamStyle) (n : Nat)
    (r : Replay ω) :
    run program registry context (options.withStyle style) n r =
      run program registry context options n r := by
  induction n generalizing r with
  | zero => rfl
  | succ n ih =>
      rw [run, run, advance_withStyle h]
      rcases r.advance program registry context options with ⟨_ | result, r⟩
      · exact ih r
      · rfl

theorem RenderProgram.renderSequential_withStyle (h : registry.IgnoresStyle) (style : ParamStyle)
    (world : ω) :
    program.renderSequential registry context (options.withStyle style) world =
      program.renderSequential registry context options world := by
  have houtcome := PassScope.outcome_withStyle h style program
    (p := ⟨registry, context, options, .sequential, {}⟩) { world }
  rw [PassScope.withStyle] at houtcome
  rw [renderSequential, renderSequential]
  simp only [houtcome]

theorem RenderProgram.renderSuspending_withStyle (h : registry.IgnoresStyle) (style : ParamStyle)
    (maxPasses : Nat) (world : ω) :
    program.renderSuspending maxPasses registry context (options.withStyle style) world =
      program.renderSuspending maxPasses registry context options world := by
  rw [renderSuspending, renderSuspending, Replay.run_withStyle h]

end

/-! ### Queries of two styles -/

/-- A text run, and placeholders that each have another text run behind them. -/
def interleave (first : String) : (placeholders runs : List String) → String
  | placeholder :: placeholders, run :: runs =>
    first ++ placeholder ++ interleave run placeholders runs
  | _, _ => first

/-- The text in front of the first marker, and the text behind each marker. -/
def literalRuns : List Segment → String × List String
  | [] => ("", [])
  | .text run :: rest => (String.ofList run ++ (literalRuns rest).1, (literalRuns rest).2)
  | .marker _ :: rest => ("", (literalRuns rest).1 :: (literalRuns rest).2)

theorem interleave_append (front first : String) (placeholders runs : List String) :
    interleave (front ++ first) placeholders runs = front ++ interleave first placeholders runs := by
  cases placeholders with
  | nil => rfl
  | cons placeholder placeholders =>
      cases runs with
      | nil => rfl
      | cons run runs => simp only [interleave, String.append_assoc]

theorem length_literalRuns (segs : List Segment) :
    (literalRuns segs).2.length = (markerIndices segs).length := by
  induction segs with
  | nil => rfl
  | cons segment rest ih =>
      cases segment with
      | text run => exact ih
      | marker index => exact congrArg (· + 1) ih

theorem interleave_literalRuns {segs : List Segment} {placeholders : List String}
    (h : placeholders.length = (markerIndices segs).length) :
    interleave (literalRuns segs).1 placeholders (literalRuns segs).2 =
      String.ofList (fillSegments segs placeholders) := by
  induction segs generalizing placeholders with
  | nil =>
      cases placeholders with
      | nil => rfl
      | cons placeholder placeholders => contradiction
  | cons segment rest ih =>
      cases segment with
      | text run =>
          rw [literalRuns, interleave_append, ih h, fillSegments, String.ofList_append]
      | marker index =>
          cases placeholders with
          | nil => contradiction
          | cons placeholder placeholders =>
              rw [literalRuns, interleave, ih (Nat.succ.inj h), fillSegments, String.ofList_append,
                List.headD_cons, List.tail_cons, String.ofList_toList, String.empty_append]

/-- The query has these text runs, with the placeholders of a style for these values between them. -/
def RenderedQuery.IsWrittenIn (style : ParamStyle) (first : String) (runs : List String)
    (values : List Value) (query : RenderedQuery) : Prop :=
  ∃ keys : List String, keys.length = values.length ∧ runs.length = values.length ∧
    query.query = interleave first (placeholders style 0 keys) runs ∧
    query.params = style.params (keys.zip values)

/-- Two renders end alike but for their styles: with the same error, or with queries that have the
same values in the same order and the same text around their placeholders. -/
inductive AgreeUpToStyle (style style' : ParamStyle) :
    Except QueryError RenderedQuery → Except QueryError RenderedQuery → Prop
  | failed (e : QueryError) : AgreeUpToStyle style style' (.error e) (.error e)
  | rendered {query query' : RenderedQuery}
      (values : query.params.values = query'.params.values)
      (positional : query.params.toPositional = query'.params.toPositional)
      (getIndex : ∀ i, query.params.getIndex? i = query'.params.getIndex? i)
      (text : ∃ first runs values, query.IsWrittenIn style first runs values ∧
        query'.IsWrittenIn style' first runs values) :
      AgreeUpToStyle style style' (.ok query) (.ok query')

theorem RenderedQuery.IsWrittenIn.values_eq {style : ParamStyle} {first : String}
    {runs : List String} {values : List Value} {query : RenderedQuery}
    (h : query.IsWrittenIn style first runs values) : query.params.values = values := by
  obtain ⟨keys, hkeys, -, -, hparams⟩ := h
  rw [hparams, ParamStyle.values_params]
  exact List.map_snd_zip (by omega)

theorem Params.toPositional_eq (params : Params) : params.toPositional = params.values := by
  cases params with
  | named entries => rfl
  | positional values => rfl

theorem AgreeUpToStyle.of_isWrittenIn {style style' : ParamStyle} {first : String}
    {runs : List String} {values : List Value} {query query' : RenderedQuery}
    (h : query.IsWrittenIn style first runs values)
    (h' : query'.IsWrittenIn style' first runs values) :
    AgreeUpToStyle style style' (.ok query) (.ok query') := by
  have hvalues : query.params.values = query'.params.values := by
    rw [h.values_eq, h'.values_eq]
  refine .rendered hvalues ?_ (fun i => ?_) ⟨first, runs, values, h, h'⟩
  · rw [Params.toPositional_eq, Params.toPositional_eq, hvalues]
  · rw [Params.getIndex?, Params.getIndex?, hvalues]

section

variable {captures : CaptureList}

theorem length_placeholders (style : ParamStyle) (bound : Nat) (keys : List String) :
    (placeholders style bound keys).length = keys.length := by
  simp [placeholders]

/-- A query has the text of its markers' surroundings, and the captured values of its markers. -/
theorem isWrittenIn_formatQuery {text : String} {segs : List Segment}
    (hsegs : segments text.toList = .ok segs) {found : List Capture}
    (hfound : (markerIndices segs).map captures.get? = found.map some) (style : ParamStyle) :
    ∃ query, formatQuery text captures style = .ok query ∧
      query.IsWrittenIn style (literalRuns segs).1 (literalRuns segs).2
        (found.map (·.value)) := by
  have hlength : (markerIndices segs).length = found.length := by
    simpa using congrArg List.length hfound
  refine ⟨_, formatQuery_of_segments hsegs hfound style, _, by simp, ?_, ?_, rfl⟩
  · rw [length_literalRuns, hlength, List.length_map]
  · rw [(readAs_of_segments hsegs).fillMarkers_eq, interleave_literalRuns]
    simp [length_placeholders, hlength]

/-- Which capture is missing first does not depend on the style. -/
theorem exists_formatSegments_eq_error {segs : List Segment}
    (h : ¬∀ index ∈ markerIndices segs, index < captures.length) :
    ∃ e, ∀ (style : ParamStyle) (f : Formatted),
      formatSegments captures style segs f = .error e := by
  induction segs with
  | nil => exact absurd (fun _ hindex => absurd hindex List.not_mem_nil) h
  | cons segment rest ih =>
      cases segment with
      | text run =>
          obtain ⟨e, he⟩ := ih h
          exact ⟨e, fun style f => he style _⟩
      | marker index =>
          cases hget : captures.get? index with
          | none =>
              refine ⟨missingCapture index captures.length, fun style f => ?_⟩
              rw [formatSegments, hget]
          | some capture =>
              have hindex : index < captures.length :=
                CaptureList.get?_isSome_iff.mp (Option.isSome_iff_exists.mpr ⟨capture, hget⟩)
              obtain ⟨e, he⟩ := ih fun hrest => h fun i hi => by
                rcases List.mem_cons.mp hi with rfl | hi
                · exact hindex
                · exact hrest i hi
              refine ⟨e, fun style f => ?_⟩
              rw [formatSegments, hget]
              exact he style _

/-- A marked text formats alike in any two styles. -/
theorem formatQuery_agree (text : String) (captures : CaptureList) (style style' : ParamStyle) :
    AgreeUpToStyle style style' (formatQuery text captures style)
      (formatQuery text captures style') := by
  cases hsegs : segments text.toList with
  | error e =>
      rw [formatQuery, formatQuery, hsegs]
      exact .failed _
  | ok segs =>
      by_cases h : ∀ index ∈ markerIndices segs, index < captures.length
      · obtain ⟨found, hfound⟩ := CaptureList.exists_captures_of_lt h
        obtain ⟨query, hquery, hwritten⟩ := isWrittenIn_formatQuery hsegs hfound style
        obtain ⟨query', hquery', hwritten'⟩ := isWrittenIn_formatQuery hsegs hfound style'
        rw [hquery, hquery']
        exact .of_isWrittenIn hwritten hwritten'
      · obtain ⟨e, he⟩ := exists_formatSegments_eq_error h
        rw [formatQuery, formatQuery, hsegs]
        simp only [he]
        exact .failed e

end

namespace QueryEngine

variable {e : QueryEngine ω}

/-- The markers and the captures of a render are the same in every style. -/
theorem renderProgram_withStyle (h : e.registry.IgnoresStyle) (style : ParamStyle) (mode : EvalMode)
    (program : RenderProgram) (context : Context ω) (options : RenderOptions) (world : ω) :
    e.renderProgram mode program context (options.withStyle style) world =
      e.renderProgram mode program context options world := by
  cases mode with
  | sequential => exact RenderProgram.renderSequential_withStyle h style world
  | suspending => exact RenderProgram.renderSuspending_withStyle h style maxPasses world

theorem formatResult_agree (options : RenderOptions) (style style' : ParamStyle)
    (result : Except QueryError MarkedQuery) :
    AgreeUpToStyle style style' (formatResult (options.withStyle style) result)
      (formatResult (options.withStyle style') result) := by
  cases result with
  | error e => exact .failed e
  | ok marked => exact formatQuery_agree marked.text marked.captures style style'

/-- Unless a filter asks for the style, a render in one style and the same render in another one end
alike but for their styles, and leave the caller's state the same: for every template and every
source, in both modes. -/
theorem render_agreeUpToStyle (h : e.registry.IgnoresStyle) (mode : EvalMode) (context : Context ω)
    (options : RenderOptions) (style style' : ParamStyle) (world : ω) :
    (∀ name,
      let rendered (style : ParamStyle) :=
        e.render mode name context (options.withStyle style) world
      AgreeUpToStyle style style' (rendered style).1 (rendered style').1 ∧
        (rendered style).2 = (rendered style').2) ∧
    ∀ source,
      let rendered (style : ParamStyle) :=
        e.renderText mode source context (options.withStyle style) world
      AgreeUpToStyle style style' (rendered style).1 (rendered style').1 ∧
        (rendered style).2 = (rendered style').2 := by
  have hprogram (style : ParamStyle) (program : RenderProgram) :=
    renderProgram_withStyle h style mode program context options world
  constructor
  · intro name
    simp only [render, renderMarked]
    cases e.getTemplate name with
    | error fault => exact ⟨.failed fault, rfl⟩
    | ok src =>
        refine ⟨?_, by simp only [hprogram]⟩
        simp only [hprogram]
        exact formatResult_agree options style style' _
  · intro source
    simp only [renderText]
    cases Instrument.instrument source.toList with
    | error fault => exact ⟨.failed fault.toQueryError, rfl⟩
    | ok source =>
        refine ⟨?_, by simp only [hprogram]⟩
        simp only [hprogram]
        exact formatResult_agree options style style' _

theorem withBuiltins_ignoresStyle : (FilterRegistry.withBuiltins : FilterRegistry ω).IgnoresStyle := by
  have hall : ∀ entry ∈ (FilterRegistry.withBuiltins : FilterRegistry ω).filters,
      entry.2.IgnoresStyle := by
    intro entry hentry
    simp only [FilterRegistry.withBuiltins, List.mem_cons, List.not_mem_nil, or_false] at hentry
    rcases hentry with rfl | rfl | rfl | rfl | rfl <;> exact fun _ _ _ _ _ => rfl
  intro name filter hfilter
  rw [FilterRegistry.resolve] at hfilter
  split at hfilter
  · rename_i found hfound
    cases hfilter
    exact hall _ (NameMap.mem_of_find? hfound)
  · contradiction

/-- A value that is bound twice has two keys in a mapping, and none in a sequence. -/
theorem render_agreeUpToStyle_twice :
    let e : QueryEngine Unit := QueryEngine.new default
    let context : Context Unit := Context.empty.insert "a" (.int 5)
    let rendered (style : ParamStyle) :=
      e.renderText .sequential "x = {{ a }} OR y = {{ a }}" context
        (RenderOptions.withStyle style {}) ()
    e.registry.IgnoresStyle ∧
      (rendered .named).1.map (·.query) = .ok "x = :a OR y = :a_1" ∧
      (rendered .qmark).1.map (·.query) = .ok "x = ? OR y = ?" ∧
      AgreeUpToStyle .named .qmark (rendered .named).1 (rendered .qmark).1 := by
  intro e context rendered
  refine ⟨withBuiltins_ignoresStyle, by decide +kernel, by decide +kernel, ?_⟩
  exact ((render_agreeUpToStyle withBuiltins_ignoresStyle .sequential context {} .named .qmark
    ()).2 _).1

end QueryEngine

end QueryTemplate
