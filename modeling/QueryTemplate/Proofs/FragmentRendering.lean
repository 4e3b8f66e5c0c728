import QueryTemplate.Engine
import QueryTemplate.Proofs.FragmentEvaluation

/-!
Rendering a template without control flow: the query is the text of the template with a placeholder
for each parameter, the quoted names in their places, and the parameters of each list in parentheses.
-/

namespace QueryTemplate

open Template Template.Eval

namespace PassScope

variable {ω : Type} {p : PassScope ω} {env : Environment} {deeper : Deeper}

/-- From here on, the statements write the text and capture the values. -/
def Writes (p : PassScope ω) (env : Environment) (deeper : Deeper) (stmts : List Stmt)
    (t : PassState ω) (text : String) (captured : List (Option String × Value)) : Prop :=
  ∀ s : Store, s.frames = [{ base := .root }] → (∃ pieces, s.sinks = [some pieces]) →
    ∃ s', s.Wrote s' text ∧ p.Yields (execBody env deeper stmts) s t ⟨⟩ s' (t.extend captured)

variable {t : PassState ω} {stmts : List Stmt} {text : String}
  {captured : List (Option String × Value)}

theorem writes_nil : p.Writes env deeper [] t "" [] := by
  rintro s - ⟨pieces, hsinks⟩
  refine ⟨s, Store.wrote_nothing hsinks, ?_⟩
  rw [execBody]
  exact .pure _ _ _

theorem Writes.run (h : p.Writes env deeper stmts t text captured) (run : List Char) (line : Nat) :
    p.Writes env deeper (Fragment.runStatements run line ++ stmts) t (String.ofList run ++ text)
      captured := by
  rw [Fragment.runStatements]
  cases hrun : run.isEmpty with
  | true =>
      rw [List.isEmpty_iff.mp hrun]
      simpa using h
  | false =>
      rintro s hframes ⟨pieces, hsinks⟩
      obtain ⟨s₁, hwrote, hwrite⟩ := Yields.write hsinks (.literal (String.ofList run))
      obtain ⟨s₂, hrest, hbody⟩ := h s₁ (hwrote.frames.trans hframes) hwrote.sinks
      refine ⟨s₂, hwrote.trans hrest, ?_⟩
      rw [if_neg Bool.false_ne_true, List.cons_append, List.nil_append, execBody, exec]
      exact hwrite.bind hbody

theorem Writes.emit {e : Expr} {line : Nat} {written : String}
    {first : List (Option String × Value)}
    (he : ∀ s : Store, s.frames = [{ base := .root }] →
      p.Yields (eval env deeper {} line e) s t (.safe written) s (t.extend first))
    (h : p.Writes env deeper stmts (t.extend first) text captured) :
    p.Writes env deeper (.emit line e :: stmts) t (written ++ text) (first ++ captured) := by
  rintro s hframes ⟨pieces, hsinks⟩
  obtain ⟨s₁, hwrote, hwrite⟩ := Yields.write hsinks (.value (.safe written))
  obtain ⟨s₂, hrest, hbody⟩ := h s₁ (hwrote.frames.trans hframes) hwrote.sinks
  refine ⟨s₂, hwrote.trans hrest, ?_⟩
  rw [execBody, exec, PassState.extend_append]
  exact ((he s hframes).bind hwrite).bind hbody

open Fragment in
/-- The statements of a template write its marked text and capture what is bound. -/
theorem writes_statements {fragments : List Fragment} {value : String → Value}
    (hfragments : ∀ f ∈ fragments, f.WellFormed)
    (hfits : Supplied p.options.identifierQuote value fragments)
    (hcontext : ∀ kind name, .tag kind name ∈ fragments →
      p.context.get? name = some (.value (value name)))
    (hp : p.registry.HasTagFilters env.registered) (hmode : p.mode = .sequential)
    (ht : t.isSuspended = false) (line : Nat) (run : List Char) :
    p.Writes env deeper (statements line run fragments) t
      (String.ofList (run ++ writeSegments
        (markedSegments p.options.identifierQuote value t.captures.length fragments)))
      (bindings p.options.identifierQuote value fragments) := by
  -- Text is collected in `run` up to the next tag, and is written in front of what the tag emits.
  induction fragments generalizing line run t with
  | nil =>
      have hnil : p.Writes env deeper [] t "" [] := writes_nil
      have hrun := hnil.run run line
      rw [List.append_nil, String.append_empty] at hrun
      rwa [markedSegments, writeSegments, List.append_nil]
  | cons fragment rest ih =>
      have hrest {t : PassState ω} (ht : t.isSuspended = false) :=
        ih (t := t) (fun f hf => hfragments f (List.mem_cons_of_mem fragment hf))
          (fun kind name hmem => hfits kind name (List.mem_cons_of_mem fragment hmem))
          (fun kind name hmem => hcontext kind name (List.mem_cons_of_mem fragment hmem)) ht
      cases fragment with
      | text more =>
          have hmore := hrest ht line (run ++ more.toList)
          rwa [List.append_assoc] at hmore
      | tag kind name =>
          obtain ⟨-, -, hreserved⟩ := hfragments _ List.mem_cons_self
          have htag (s : Store) (hs : s.frames = [{ base := .root }]) :=
            (hfits kind name List.mem_cons_self).eval_emitted hp hmode hreserved
              (hcontext kind name List.mem_cons_self) hs ht deeper (line + Text.newlines run)
              (line + Text.newlines run)
          have hbody := (Writes.emit htag (hrest (by exact ht) (line + Text.newlines run) [])).run
            run line
          rw [statements, bindings, markedSegments, writeSegments_append,
            Emission.writeSegments_segments, String.ofList_append, String.ofList_append,
            String.ofList_toList]
          rwa [PassState.captures_extend, CaptureList.length_extend] at hbody

/-- A template that extends no other is its statements. -/
theorem Writes.runUnit (h : p.Writes env deeper stmts t text captured) (template : String)
    {s : Store} (hframes : s.frames = [{ base := .root }])
    (hsinks : ∃ pieces, s.sinks = [some pieces]) :
    ∃ s', s.Wrote s' text ∧
      p.Yields (Eval.runUnit env deeper template stmts) s t ⟨⟩ s' (t.extend captured) := by
  obtain ⟨s₁, hwrote, hbody⟩ := h { s with template, parent := none } hframes hsinks
  obtain ⟨pieces, pieces', hs, rfl, htext⟩ := hwrote
  refine ⟨{ s with sinks := [some pieces'] }, ⟨pieces, pieces', hs, rfl, htext⟩, ?_⟩
  have hrestore := Yields.update (p := p)
    (fun s' : Store => { s' with template := s.template, parent := s.parent })
    { s with template, parent := none, sinks := [some pieces'] } (t.extend captured)
  rw [Eval.runUnit]
  refine .bind (.get _ _) (.bind (.set _ _ _) (.bind hbody (.bind (.get _ _) ?_)))
  exact .bind (.pure _ _ _) hrestore

/-- A template whose statements write a text is a program that ends with this text. -/
theorem Writes.run_program {src : Source} {text : String}
    (h : ∀ deeper, p.Writes env deeper src.body t text captured) :
    ∃ pieces, outputText pieces = text ∧
      p.run (src.program env) t = (some (.ok pieces), t.extend captured) := by
  have hlevels : Template.maxLevels = 4999 + 1 := rfl
  obtain ⟨s', hwrote, hunit⟩ := (h (doTask env 4999)).runUnit src.name (s := Store.initial src)
    rfl ⟨[], rfl⟩
  have htask : p.Yields (doTask env Template.maxLevels (.unit src.name src.body))
      (Store.initial src) t .undefined s' (t.extend captured) := by
    rw [hlevels, doTask, perform]
    exact .bind hunit (.pure _ _ _)
  refine ⟨s'.output, hwrote.outputText_eq rfl, ?_⟩
  rw [Source.program, run_bind_of_some htask]
  rfl

/-- A pass that comes to a text, without a failure and without anything to wait for. -/
theorem outcome_of_run {program : RenderProgram} {u : PassState ω} {text : String}
    (h : p.run program t = (some (.ok text), u)) (hsuspension : u.suspension = none)
    (hfailure : u.failure = none) :
    p.outcome program t = (.complete ⟨text, u.captures⟩, u) := by
  rw [outcome, h]
  simp only [PassState.finish, hsuspension, hfailure]

end PassScope

namespace QueryEngine

variable {ω : Type}

theorem hasTagFilters_new (files : FileTree) :
    (new files : QueryEngine ω).registry.HasTagFilters (new files : QueryEngine ω).dispatched :=
  ⟨rfl, rfl, rfl, rfl⟩

open Fragment

variable {e : QueryEngine ω} {fragments : List Fragment} {context : Context ω}
  {options : RenderOptions} {value : String → Value}

/-- The program of an instrumented template comes to its marked text. -/
theorem run_oneOffProgram (hfilters : e.registry.HasTagFilters e.dispatched)
    (hkeep : e.config.keepTrailingNewline = true) (hfragments : ∀ f ∈ fragments, f.WellFormed)
    (hcontext : ∀ kind name, .tag kind name ∈ fragments →
      context.get? name = some (.value (value name)))
    (hfits : Supplied options.identifierQuote value fragments) (world : ω) :
    let scope : PassScope ω := { registry := e.registry, context, options, mode := .sequential }
    scope.run (e.oneOffProgram context (fragments.flatMap instrumented)) { world } =
      (some (.ok (String.ofList (writeSegments
        (markedSegments options.identifierQuote value 0 fragments)))),
        ({ world } : PassState ω).extend (bindings options.identifierQuote value fragments)) := by
  intro scope
  let src : Source := ⟨oneOffName, statements 1 [] fragments, []⟩
  have hparse : e.parse oneOffName (fragments.flatMap instrumented) = .ok src := by
    rw [QueryEngine.parse, parse_instrumented hkeep hfragments]
  have hwrites (deeper : Deeper) : scope.Writes (e.environment context) deeper src.body { world }
      (String.ofList (writeSegments (markedSegments options.identifierQuote value 0 fragments)))
      (bindings options.identifierQuote value fragments) :=
    PassScope.writes_statements hfragments hfits hcontext hfilters rfl rfl 1 []
  obtain ⟨pieces, hpieces, hrun⟩ := PassScope.Writes.run_program hwrites
  rw [oneOffProgram, hparse]
  simp only [program]
  rw [PassScope.run_bind_of_some hrun]
  simp only [hpieces]
  rfl

/-- A template of text and of tags is rendered to its text with a placeholder for each parameter, in
every style. The keys of the parameters are the names of the variables, with a number for an element
of a list, and they are told apart where a name is used again. At most `indexLimit` values can be
captured in one render. -/
theorem renderText_fragments (hfilters : e.registry.HasTagFilters e.dispatched)
    (hkeep : e.config.keepTrailingNewline = true) (hfragments : ∀ f ∈ fragments, f.WellFormed)
    (hvalid : context.validate = .ok ())
    (hcontext : ∀ kind name, .tag kind name ∈ fragments →
      context.get? name = some (.value (value name)))
    (options : RenderOptions) (hfits : Supplied options.identifierQuote value fragments)
    (hquote : ∀ c ∈ options.identifierQuote, isReserved c = false)
    (hlimit : (parameters value fragments).length ≤ indexLimit) (world : ω) :
    let style := options.paramStyle
    let bases := (parameters value fragments).map (·.1)
    let keys := style.keysFor {} bases
    e.renderText .sequential (String.ofList (fragments.flatMap source)) context options world =
        (.ok ⟨query options.identifierQuote value fragments (placeholders style 0 keys),
          style.params (keys.zip ((parameters value fragments).map (·.2)))⟩, world) ∧
      (style.container = .mapping → keys.Nodup) ∧
      ∀ (k : Nat) (base key : String), bases[k]? = some base → keys[k]? = some key →
        style.KeyOf (keys.take k) base key := by
  intro style bases keys
  refine ⟨?_, fun hkind => style.nodup_keysFor hkind {} bases,
    fun k base key hbase hkey => ParamStyle.keysFor_keyOf hbase hkey⟩
  have hrun := run_oneOffProgram hfilters hkeep hfragments hcontext hfits world
  have houtcome := PassScope.outcome_of_run hrun rfl rfl
  have hformat := formatQuery_markedSegments hfragments hfits hquote hlimit style
  rw [renderText, String.toList_ofList, Instrument.instrument_source hfragments]
  simp only [renderProgram, RenderProgram.renderSequential, hvalid, houtcome, formatResult,
    MarkedQuery.format, PassState.captures_extend, style, hformat]
  rfl

/-- The number of a list element makes a key that is another variable's name. -/
theorem renderText_fragments_told_apart :
    let e : QueryEngine Unit :=
      { QueryEngine.new default with config := { keepTrailingNewline := true } }
    let fragments := [text "SELECT ", tag .identifier "col", text " = ", tag .plain "ids_1",
      text " IN ", tag .inclause "ids", text "\n"]
    let context : Context Unit :=
      ((Context.empty.insert "col" (.str "a\"b")).insert "ids_1" (.int 1)).insert "ids"
        (.list [.int 2, .int 3])
    (e.renderText .sequential (String.ofList (fragments.flatMap source)) context {} ()).1 =
      .ok ⟨"SELECT \"a\"\"b\" = :ids_1 IN (:ids_1_1, :ids_2)\n",
        .named [("ids_1", .int 1), ("ids_1_1", .int 2), ("ids_2", .int 3)]⟩ := by
  intro e fragments context
  let value : String → Value := fun name =>
    if name = "col" then .str "a\"b" else if name = "ids" then .list [.int 2, .int 3] else .int 1
  have htags : ∀ kind name, tag kind name ∈ fragments →
      (kind = .identifier ∧ name = "col") ∨ (kind = .plain ∧ name = "ids_1") ∨
        (kind = .inclause ∧ name = "ids") := by
    simp [fragments]
  have hcontext : ∀ kind name, tag kind name ∈ fragments →
      context.get? name = some (.value (value name)) := by
    intro kind name hmem
    rcases htags kind name hmem with ⟨-, rfl⟩ | ⟨-, rfl⟩ | ⟨-, rfl⟩ <;> rfl
  have hfits : Supplied (some '"') value fragments := by
    intro kind name hmem
    rcases htags kind name hmem with ⟨rfl, rfl⟩ | ⟨rfl, rfl⟩ | ⟨rfl, rfl⟩
    · exact .identifier rfl
    · exact .plain rfl rfl
    · exact .inclause (by simp [Value.isScalar])
  have hkeys : ParamStyle.named.keysFor {} ((parameters value fragments).map (·.1)) =
      ["ids_1", "ids_1_1", "ids_2"] := by
    decide +kernel
  have hquery : query (some '"') value fragments
      (placeholders .named 0 ["ids_1", "ids_1_1", "ids_2"]) =
        "SELECT \"a\"\"b\" = :ids_1 IN (:ids_1_1, :ids_2)\n" := by
    decide +kernel
  have hquote : ∀ c ∈ some '"', isReserved c = false := by
    rintro c ⟨⟩
    rfl
  have hrender := renderText_fragments (e := e) (hasTagFilters_new default) rfl
    (show ∀ f ∈ fragments, f.WellFormed by decide) rfl hcontext {} hfits hquote (by decide) ()
  simp only [hkeys, hquery] at hrender
  exact congrArg Prod.fst hrender.1

/-- A variable that no tag mentions can still be refused: its name may be the one of the render. -/
theorem renderText_fragments_refused :
    let e : QueryEngine Unit :=
      { QueryEngine.new default with config := { keepTrailingNewline := true } }
    let fragments := [tag .plain "a"]
    let context : Context Unit := (Context.empty.insert "a" (.int 1)).insert scopeName (.int 1)
    (∀ f ∈ fragments, f.WellFormed) ∧
      (∀ kind name, tag kind name ∈ fragments → context.get? name = some (.value (.int 1))) ∧
      Supplied (some '"') (fun _ => .int 1) fragments ∧
      ((e.renderText .sequential (String.ofList (fragments.flatMap source)) context {} ()).1.map
        (·.query)) = .error (.reservedName scopeName) := by
  refine ⟨by decide, fun kind name hmem => ?_, fun kind name hmem => ?_, by decide +kernel⟩
  · obtain ⟨-, rfl⟩ : kind = .plain ∧ name = "a" := by simpa using hmem
    rfl
  · obtain ⟨rfl, -⟩ : kind = .plain ∧ name = "a" := by simpa using hmem
    exact .plain rfl rfl

end QueryEngine

end QueryTemplate
