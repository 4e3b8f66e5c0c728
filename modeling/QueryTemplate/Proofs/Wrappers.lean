import QueryTemplate.Proofs.ExactlyOnce
import QueryTemplate.Proofs.FilterTrees

/-!
Wrappers in a render. Whatever is emitted, one wrapper is taken off: a value with a name is captured
without it, and a list is captured element by element. What is below is not looked into, so a wrapper
inside of another one is bound to a parameter. This happens where a list gets a name behind
`inclause`, and where an element of the list has been through a filter itself, and in no other way.
-/

namespace QueryTemplate

/-- No variable of the render is wrapped, be its value given or produced, and the caller's objects
always answer the same. -/
structure Context.IsPlain {ω : Type} (c : Context ω) : Prop where
  value : ∀ name v, c.get? name = some (.value v) → v.wrapping = {}
  deferred : ∀ name produce, c.get? name = some (.deferred produce) →
    ∀ w v, (awaitOn produce w).1 = .ok v → v.wrapping = {}
  read : ∀ object attr, ∃ v, ∀ w, c.readAttribute object attr w = (v, w)

theorem Context.IsPlain.deterministic {ω α : Type} {c : Context ω} (h : c.IsPlain)
    (program : Template.Program α) : program.Deterministic c.readAttribute := by
  induction program with
  | done a => trivial
  | lookup name next ih => exact ih
  | call name input args next ih => exact ih
  | emit v hint next ih => exact ih
  | read object attr next ih => exact ⟨h.read object attr, ih⟩

theorem Emission.map_snd_bound (v : Value) (hint : Option String) :
    (bound v hint).map (·.2) = v.unwrapped := by
  cases v with
  | params items => exact map_snd_numbered hint 1 items
  | _ => rfl

/-! ### Runs -/

namespace PassScope

section Runs

variable {ω α : Type} {p : PassScope ω}

/-- What is found in the context of a sequential pass are its values. -/
theorem get?_of_lookup (hmode : p.mode = .sequential) {name : String} {s : PassState ω} {v : Value}
    (h : (p.lookup name s).1 = some v) : p.context.get? name = some (.value v) := by
  rw [lookup] at h
  split at h
  · cases h
  · rename_i hvalue
    rw [hvalue, Option.some.inj h]
  · simp only [lookupDeferred, hmode] at h
    split at h <;> cases h

/-- What a sequential pass is answered to a call is the output of a builtin filter. -/
theorem output_of_call (hmode : p.mode = .sequential) (hp : p.registry.HasBuiltins) {name : String}
    {f : FilterScope → Classified → List Value → Except FilterError Classified}
    (hf : Builtin.run? name = some f) {input v : Value} {args : List Value} {s t : PassState ω}
    (hcall : p.call name input args s = (some v, t)) :
    ∃ output, f p.filterScope (classify input) args = .ok output ∧ v = output.toValue := by
  have hs : s.isSuspended = false := by
    by_contra hs
    rw [call, if_pos (by simpa using hs)] at hcall
    cases hcall
  have hanswers : p.Answered ⟨name, args⟩ input s := .sequential hmode (hp name f hf)
  obtain ⟨hreturns, hfails⟩ := call_of_builtin hp hs hanswers hf
  cases houtput : f p.filterScope (classify input) args with
  | error e =>
      obtain ⟨u, hnone⟩ := hfails e houtput
      rw [hcall] at hnone
      cases hnone
  | ok output =>
      obtain ⟨u, hsome, -⟩ := hreturns output houtput
      rw [hcall] at hsome
      cases hsome
      exact ⟨output, rfl, rfl⟩

/-- A sequential pass without wrappers in its context is among the surroundings that a computation is
judged by. -/
theorem run_traces (hmode : p.mode = .sequential) (hp : p.registry.HasBuiltins)
    (hplain : p.context.IsPlain)
    {Q : List Value → α → Prop} {x : Template.Program α} {emitted : List Value}
    (h : x.Traces Q emitted) {s t : PassState ω} {a : α} (hrun : p.run x s = (some a, t)) :
    Q (emitted ++ (p.emissions x s).map (·.1)) a := by
  induction x generalizing s emitted with
  | done b =>
      cases hrun
      rw [emissions, List.map_nil, List.append_nil]
      exact h
  | lookup name next ih =>
      rw [run_lookup] at hrun
      exact ih _ (h _ fun w hw => hplain.value name w (get?_of_lookup hmode hw)) hrun
  | call name input args next ih =>
      rw [run_call] at hrun
      rw [emissions]
      rcases hcall : p.call name input args s with ⟨_ | v, u⟩ <;> rw [hcall] at hrun
      · cases hrun
      · obtain ⟨f, hf⟩ := Option.isSome_iff_exists.mp h.1
        obtain ⟨output, houtput, rfl⟩ := output_of_call hmode hp hf hcall
        exact ih _ (h.2 _ (Builtin.wrapping_of_run hf houtput)) hrun
  | emit v hint next ih =>
      rw [run_emit] at hrun
      rw [emissions]
      cases hs : s.isSuspended with
      | true =>
          rw [PassState.emit_of_suspended hs] at hrun
          cases hrun
      | false =>
          rw [if_neg Bool.false_ne_true, List.map_cons]
          rcases hemit : s.emit v hint with ⟨_ | text, u⟩ <;> rw [hemit] at hrun
          · cases hrun
          · have hlater := ih text (h text) hrun
            rwa [List.append_assoc] at hlater
  | read object attr next ih =>
      rw [run_read] at hrun
      exact ih _ (h _) hrun

/-- A direct run is another such surroundings. -/
theorem DirectRun.traces {x : Template.Program α} {s t : DirectState ω}
    {result : Except QueryError α} (run : DirectRun p x s result t) (hp : p.registry.HasBuiltins)
    (hplain : p.context.IsPlain) (hknown : ∀ entry ∈ s.known, entry.2.wrapping = {})
    {Q : List Value → α → Prop} {emitted : List Value} (h : x.Traces Q emitted) {a : α}
    (hresult : result = .ok a) :
    ∃ more, Q (emitted ++ more) a ∧
      t.captures.values = s.captures.values ++ more.flatMap Value.unwrapped := by
  induction run generalizing emitted with
  | done =>
      cases hresult
      exact ⟨[], by rwa [List.append_nil], by rw [List.flatMap_nil, List.append_nil]⟩
  | absent _ _ ih => exact ih hknown (h none fun w hw => by cases hw) hresult
  | @plain name _ _ v _ _ hget _ ih =>
      refine ih hknown (h (some v) ?_) hresult
      rintro w ⟨⟩
      exact hplain.value name v hget
  | @known name _ _ _ v _ _ _ hlookup _ ih =>
      refine ih hknown (h (some v) ?_) hresult
      rintro w ⟨⟩
      obtain ⟨before, after, heq, -⟩ := List.lookup_eq_some_iff.mp hlookup
      exact hknown (name, v) (by simp [heq])
  | @produced name _ s produce v world _ _ hget _ hawait _ ih =>
      have hv : v.wrapping = {} := hplain.deferred name produce hget s.world v (by rw [hawait])
      refine ih ?_ (h (some v) ?_) hresult
      · intro entry hentry
        rcases List.mem_append.mp hentry with hbefore | hlast
        · exact hknown entry hbefore
        · obtain rfl := List.mem_singleton.mp hlast
          exact hv
      · rintro w ⟨⟩
        exact hv
  | @sync name input args _ _ run output _ _ _ hget hrun _ ih =>
      obtain ⟨f, hf⟩ := Option.isSome_iff_exists.mp h.1
      have hfilter : Filter.ofFunction f = .sync run := by
        rw [hp name f hf] at hget
        exact Except.ok.inj hget
      cases hfilter
      exact ih hknown (h.2 _ (Builtin.wrapping_of_run hf (congrArg Prod.fst hrun))) hresult
  | @async name _ _ _ _ start _ _ _ _ hget _ _ _ =>
      -- No built-in filter is asynchronous.
      obtain ⟨f, hf⟩ := Option.isSome_iff_exists.mp h.1
      rw [hp name f hf] at hget
      cases hget
  | @emit v hint _ s text captures _ _ hwrite _ ih =>
      obtain ⟨more, hmore, hvalues⟩ := ih hknown (h text) hresult
      rw [Emission.write] at hwrite
      split at hwrite
      · cases hwrite
      · cases hwrite
        refine ⟨v :: more, by rwa [List.append_assoc] at hmore, ?_⟩
        rw [hvalues, CaptureList.values_extend, Emission.map_snd_bound, List.flatMap_cons,
          List.append_assoc]
  | read _ _ ih => exact ih hknown (h _) hresult
  | notProduced | unregistered | syncFailed | asyncFailed | refused => cases hresult

end Runs

variable {ω : Type} {p : PassScope ω} {program : RenderProgram} {s : PassState ω}
  {marked : MarkedQuery}

theorem isUndefined_of_complete (h : (p.outcome program s).1 = .complete marked) :
    ∀ emission ∈ p.emissions program s, emission.1.isUndefined = false := by
  rintro ⟨v, hint⟩ hemission
  by_contra hundefined
  obtain ⟨t, -, hfailed⟩ := outcome_of_undefined hemission (by simpa using hundefined)
  rw [h] at hfailed
  cases hfailed

/-- The captures of a pass that gets through are what it emits, without a wrapper around it. -/
theorem values_of_complete (hs : s.captures = {}) (h : (p.outcome program s).1 = .complete marked) :
    marked.captures.values =
      ((p.emissions program s).map (·.1)).flatMap Value.unwrapped := by
  rw [(run_of_complete h).2, captures_run, hs, CaptureList.values_extend, List.map_flatMap,
    List.flatMap_map]
  refine List.flatMap_congr fun emission hmem => ?_
  rw [Emission.captured, if_neg (by simp [isUndefined_of_complete h emission hmem])]
  exact Emission.map_snd_bound _ _

end PassScope

theorem exists_isWrapper_unwrapped_iff {emitted : List Value} :
    (∃ v ∈ emitted.flatMap Value.unwrapped, v.isWrapper = true) ↔
      ∃ w ∈ emitted.map Value.wrapping, w.hides = true := by
  simp only [List.mem_flatMap, List.mem_map, exists_exists_and_eq_and, Value.hides_wrapping,
    List.any_eq_true]
  constructor
  · rintro ⟨v, ⟨w, hw, hv⟩, hwrapper⟩
    exact ⟨w, hw, v, hv, hwrapper⟩
  · rintro ⟨w, hw, v, hv, hwrapper⟩
    exact ⟨v, ⟨w, hw, hv⟩, hwrapper⟩

/-! ### Renders -/

namespace QueryEngine

variable {ω : Type}

section Renders

variable {e : QueryEngine ω} {mode : EvalMode} {program : RenderProgram} {context : Context ω}
  {options : RenderOptions} {world : ω} {marked : MarkedQuery}

/-- What a program emits in a render, and what is captured of it. In suspending mode these are the
emissions of the direct run, which the passes come to. -/
theorem exists_emitted (hp : e.registry.HasBuiltins) (hplain : context.IsPlain)
    {Q : List Value → Except QueryError String → Prop} (h : program.Traces Q [])
    (hmarked : (e.renderProgram mode program context options world).1 = .ok marked) :
    ∃ emitted, Q emitted (.ok marked.text) ∧
      marked.captures.values = emitted.flatMap Value.unwrapped := by
  cases mode with
  | sequential =>
      obtain ⟨p, s, hpass, hcomplete⟩ := exists_hasPass_of_ok hmarked
      have hvalues := PassScope.values_of_complete hpass.captures hcomplete
      cases hpass
      have hrun := (PassScope.run_of_complete hcomplete).1
      exact ⟨_, PassScope.run_traces rfl hp hplain h (Prod.ext hrun rfl), hvalues⟩
  | suspending =>
      obtain ⟨-, r, hrun, -⟩ :=
        RenderProgram.run_of_renderSuspending (Prod.ext (y := (_, _)) hmarked rfl)
      rcases hdirect : PassScope.direct
        { registry := e.registry, context, options, mode := .suspending } program { world } with
        ⟨result, d⟩
      obtain ⟨final, hcourse, -, -, -⟩ := RenderProgram.course_of_direct
        (hplain.deterministic program) (Replay.halts_of_run hrun) hdirect
      obtain ⟨hreport, -⟩ := Replay.run_unique hrun (hcourse.ends _ (Nat.lt_succ_self _))
      obtain ⟨text, rfl, rfl⟩ := RenderProgram.eq_ok_of_report hreport.symm
      have hdrun := PassScope.directRun
        { registry := e.registry, context, options, mode := .suspending } program { world }
      rw [hdirect] at hdrun
      obtain ⟨emitted, hemitted, hvalues⟩ :=
        hdrun.traces hp hplain (List.forall_mem_nil _) h rfl
      exact ⟨emitted, hemitted, hvalues⟩

/-- What a template of text and tags emits. -/
theorem traces_program
    (hdispatched : ∀ name, (Builtin.run? name).isSome → e.dispatched.contains name = true)
    {src : Template.Source} (hflat : src.isFlat = true) :
    (e.program context src).Traces (fun later r => ∀ text, r = .ok text →
      later.map Value.wrapping = src.emitted.map Template.Expr.wrapping) [] := by
  have hregistered : ∀ name, (Builtin.run? name).isSome →
      (e.environment context).registered.contains name = true := hdispatched
  refine Template.Program.Traces.bind (src.traces_program hregistered hflat) fun later r hr => ?_
  cases r with
  | error stop => exact fun _ h => nomatch h
  | ok pieces => exact fun _ _ => hr pieces rfl

end Renders

/-- Wrappers in the renders of a template. The captures of a render are the values that its last pass
emits: what is under the name of a value with one, the elements of a list to be bound element by
element, and every other value itself. There is no other parameter. A wrapper is captured exactly if
an emitted value has one inside of another. In a template of text and tags, whose tags apply the
built-in filters in any order and nesting to variables without wrappers, the expressions say when. -/
theorem wrappers_of_renderProgram (e : QueryEngine ω) (mode : EvalMode) (program : RenderProgram)
    (context : Context ω) (options : RenderOptions) (world : ω) :
    (∀ marked, (e.renderProgram mode program context options world).1 = .ok marked →
      ∃ p s, e.HasPass program context options world mode p s ∧
        marked.captures.values =
          ((p.emissions program s).map (·.1)).flatMap Value.unwrapped ∧
        (∀ query, marked.format options.paramStyle = .ok query →
          ∀ v ∈ query.params.values, v ∈ marked.captures.values) ∧
        ((∃ v ∈ marked.captures.values, v.isWrapper = true) ↔
          ∃ emission ∈ p.emissions program s, emission.1.wrapping.hides = true)) ∧
    (e.registry.HasBuiltins →
      (∀ name, (Builtin.run? name).isSome → e.dispatched.contains name = true) →
      context.IsPlain → ∀ src : Template.Source, src.isFlat = true → ∀ marked,
        (e.renderProgram mode (e.program context src) context options world).1 = .ok marked →
        (∃ emitted : List Value,
          emitted.map Value.wrapping = src.emitted.map Template.Expr.wrapping ∧
          marked.captures.values = emitted.flatMap Value.unwrapped) ∧
        ((∃ v ∈ marked.captures.values, v.isWrapper = true) ↔
          ∃ expr ∈ src.emitted, expr.wrapping.hides = true)) := by
  constructor
  · intro marked hmarked
    obtain ⟨p, s, hpass, hcomplete⟩ := exists_hasPass_of_ok hmarked
    have hvalues := PassScope.values_of_complete hpass.captures hcomplete
    refine ⟨p, s, hpass, hvalues, fun query hquery v hv => mem_values_of_formatQuery hquery hv, ?_⟩
    rw [hvalues, exists_isWrapper_unwrapped_iff]
    simp only [List.mem_map, exists_exists_and_eq_and]
  · intro hbuiltins hdispatched hplain src hflat marked hmarked
    obtain ⟨emitted, htraces, hvalues⟩ :=
      exists_emitted hbuiltins hplain (traces_program hdispatched hflat) hmarked
    have hemitted := htraces marked.text rfl
    refine ⟨⟨emitted, hemitted, hvalues⟩, ?_⟩
    rw [hvalues, exists_isWrapper_unwrapped_iff, hemitted]
    simp only [List.mem_map, exists_exists_and_eq_and]

/-- A name for a value and a list of values without names: no wrapper is bound. -/
theorem wrappers_of_renderProgram_apart :
    let e : QueryEngine Unit := .new default
    let context : Context Unit := Context.empty.insert "a" (.int 1)
    let tag (operand : Template.Expr) : Template.Stmt :=
      .emit 1 (.filter 1 (some operand) emitName [(.positional, .var 1 scopeName)])
    let src : Template.Source :=
      ⟨"tags", [
        tag (.filter 1 (some (.var 1 "a")) "bind" [(.positional, .const 1 (.str "x"))]),
        tag (.filter 1 (some (.list 1 [.var 1 "a"])) "inclause" [])], []⟩
    ∃ marked, (e.renderProgram .sequential (e.program context src) context {} ()).1 = .ok marked ∧
      ∀ v ∈ marked.captures.values, v.isWrapper = false := by
  intro e context tag src
  have hok :
      (e.renderProgram .sequential (e.program context src) context {} ()).1.toBool = true := by
    decide +kernel
  obtain ⟨marked, hmarked⟩ : ∃ marked,
      (e.renderProgram .sequential (e.program context src) context {} ()).1 = .ok marked := by
    cases hrender : (e.renderProgram .sequential (e.program context src) context {} ()).1 with
    | ok marked => exact ⟨marked, rfl⟩
    | error fault =>
        rw [hrender] at hok
        cases hok
  have hdispatched : ∀ name, (Builtin.run? name).isSome → e.dispatched.contains name = true := by
    intro name hname
    unfold Builtin.run? at hname
    split at hname
    case h_6 => cases hname
    all_goals rfl
  have hget (name : String) :
      context.get? name = if "a" = name then some (.value (.int 1)) else none := rfl
  have hplain : context.IsPlain := by
    refine ⟨fun name v hv => ?_, fun name produce hproduce => ?_, fun _ _ => ⟨none, fun _ => rfl⟩⟩
    · rw [hget] at hv
      split at hv <;> cases hv
      rfl
    · rw [hget] at hproduce
      split at hproduce <;> cases hproduce
  obtain ⟨-, hwrappers⟩ := (wrappers_of_renderProgram e .sequential (e.program context src) context
    {} ()).2 FilterRegistry.hasBuiltins_withBuiltins hdispatched hplain src rfl marked hmarked
  refine ⟨marked, hmarked, fun v hv => Bool.eq_false_iff.mpr fun hwrapper => ?_⟩
  obtain ⟨expr, hexpr, hhides⟩ := hwrappers.mp ⟨v, hv, hwrapper⟩
  have hnone : ∀ expr ∈ src.emitted, expr.wrapping.hides = false := by decide
  rw [hnone expr hexpr] at hhides
  cases hhides

/-- A list that gets a name is bound as a whole, and so is an element that has a name of its own: the
wrappers are bound with them. -/
theorem bind_inclause_wrappers_rendered :
    let context : Context Unit :=
      (Context.empty.insert "ids" (.list [.int 1, .int 2])).insert "v" (.int 5)
    let e : QueryEngine Unit := .new default
    ["\x7b\x7b ids | inclause | bind('x') \x7d\x7d",
      "\x7b\x7b [v | bind('x')] | inclause \x7d\x7d"].map
      (fun source =>
        (e.renderText .sequential source context {} ()).1.map
          fun query => (query.query, query.params.values.map Value.isWrapper)) =
      [.ok (":x", [true]), .ok ("(:param_1)", [true])] := by
  decide +kernel

end QueryEngine

end QueryTemplate
