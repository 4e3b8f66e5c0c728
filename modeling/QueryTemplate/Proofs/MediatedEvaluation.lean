import QueryTemplate.Proofs.Mediation

/-!
Mediated templates keep their output mediated: one lemma for each form of an expression and of a
statement, then the tasks they lead to, on any number of levels, and the template as a whole.
-/

namespace QueryTemplate.Template

namespace Eval

variable {m : Mediation}

/-! ### Expressions -/

section Expressions

variable (deeper : Deeper) [hdeeper : deeper.Mediates m]

set_option linter.unusedSectionVars false

/-- An expression writes nothing: the emit filter only returns what is to be written. -/
instance keeps_eval (text : Value) (line : Nat) (e : Expr) :
    m.Keeps (eval m.env deeper ⟨text, none⟩ line e) := by
  refine keeps_eval_of (p := fun _ _ => true) (fun _ hargs line v => ?_)
    (fun _ hcaller => by cases hcaller) line e e.eachFilter_true
  exact keeps_applyTo (fun _ _ _ => inferInstance) hargs line v

instance keeps_evalPositional (line : Nat) (args : List Arg) :
    m.Keeps (evalPositional m.env deeper line args) :=
  keeps_evalPositional_of (fun _ _ _ => inferInstance) line

instance keeps_evalNamed (line : Nat) (args : List Arg) :
    m.Keeps (evalNamed m.env deeper line args) :=
  keeps_evalNamed_of (fun _ _ _ => inferInstance) line

/-- What the emit filter returns is an answer to an emission. -/
theorem returns_emitFilter (v : Value) (args : CallArgs) :
    m.Returns (Written m) (emitFilter m.env v args) := by
  unfold emitFilter
  refine .bind_keeps inferInstance fun given => .bind_keeps inferInstance fun scope => ?_
  refine .bind_keeps inferInstance fun hint => ?_
  split
  · exact .bind_keeps inferInstance fun w => .emit fun text htext => .emitted htext
  · exact .stop trivial

/-- What is applied last in an expression with a filter. -/
theorem returns_eval_filter {P : Value → Prop} {name : String}
    (h : ∀ v named positional,
      m.Returns P (applyFilter m.env name v named positional))
    (text : Value) (line l : Nat) (subject : Option Expr) (args : List (ArgKind × Expr)) :
    m.Returns P (eval m.env deeper ⟨text, none⟩ line (.filter l subject name args)) := by
  have hrest (v : Value) (middle : Nat) : m.Returns P (applyTo m.env deeper name args middle v) := by
    refine .bind_keeps inferInstance fun positional => .bind_keeps inferInstance fun named => ?_
    exact .at_ (.bind_keeps inferInstance fun given => h _ _ _) _
  unfold eval
  cases subject with
  | none => exact .bind_keeps inferInstance fun v => hrest v _
  | some e => exact .bind_keeps inferInstance fun v => hrest v _

/-- The value of an expression tag may be written. -/
theorem returns_eval_emission {e : Expr} (h : e.isEmission = true) (line : Nat) :
    m.Returns (Written m) (eval m.env deeper {} line e) := by
  cases e with
  | filter l subject name args =>
      cases subject with
      | none => cases h
      | some e =>
          obtain rfl : name = emitName := by simpa [Expr.isEmission] using h
          refine returns_eval_filter deeper (fun v named positional => ?_) _ line l (some e) args
          unfold applyFilter
          rw [if_pos rfl]
          exact returns_emitFilter v _
  | _ => cases h

/-- What the call of a call block yields. -/
theorem returns_eval_call {caller : Caller} (hcaller : m.Keeps caller.declare) {call : Expr}
    (h : call.isCall = true) (line : Nat) :
    m.Returns (Yielded m) (eval m.env deeper { caller := some caller } line call) := by
  cases call with
  | call l callee args =>
      have hcalled (middle : Nat) (target : Callee) :
          m.Returns (Yielded m) (callTo m.env deeper (some caller) args middle target) := by
        refine .bind_keeps inferInstance fun positional => .bind_keeps inferInstance fun named => ?_
        refine .bind_keeps hcaller fun macro_ => ?_
        exact .at_ (.bind_keeps inferInstance fun given => returns_callAny _ _) _
      unfold eval
      cases callee with
      | attr e name =>
          split
          · exact .at_ (returns_callAny _ _) _
          · exact .bind_keeps inferInstance fun v =>
              .bind_keeps inferInstance fun target => hcalled _ _
      | var l' name => exact .bind_keeps inferInstance fun target => hcalled _ _
      | _ =>
          exact .bind_keeps inferInstance fun v =>
            .bind_keeps inferInstance fun target => hcalled _ _
  | _ => cases h

end Expressions

/-! ### Other templates -/

section Inclusions

variable (deeper : Deeper) [hdeeper : deeper.Mediates m]

theorem keeps_runIncluded {src : Source} (h : src.isMediated m.blocks = true) :
    m.Keeps (runIncluded deeper src) := by
  have hbody : m.Keeps (deeper (.unit src.name src.body)) :=
    hdeeper.keeps (Source.areMediated_body h)
  unfold runIncluded
  refine .get_bind fun s hs => .bind (.set { hs with blocks := ?_ }) fun _ => ?_
  · exact .blockStacks fun _ => Source.areMediated_block h
  refine .next fun _ => .next fun _ => ?_
  exact .update fun s' hs' => { hs' with blocks := hs.blocks }

variable [henv : m.FindsMediated]

instance keeps_includeFirst (ignoreMissing : Bool) (tried choices : List Value) :
    m.Keeps (includeFirst m.env deeper ignoreMissing tried choices) := by
  induction choices generalizing tried with
  | nil =>
      unfold includeFirst
      infer_instance
  | cons choice rest ih =>
      unfold includeFirst
      split
      · infer_instance
      · split
        · exact .stop trivial
        · exact ih _
        · exact keeps_runIncluded deeper (henv.find ‹_›)

instance keeps_includeTemplate (choice : Value) (ignoreMissing : Bool) :
    m.Keeps (includeTemplate m.env deeper choice ignoreMissing) := by
  unfold includeTemplate
  refine .next fun choices? => ?_
  split <;> infer_instance

instance keeps_extend (v : Value) : m.Keeps (extend m.env v) := by
  unfold extend
  refine .next fun s => ?_
  dsimp only
  split
  · infer_instance
  · split
    · infer_instance
    · split
      · infer_instance
      · split
        · exact .stop trivial
        · infer_instance
        · rename_i src hfind
          have h := henv.find hfind
          refine .bind (.update fun s hs => { hs with parent := ?_, blocks := ?_ }) fun _ =>
            inferInstance
          · exact hs.blocks.addLayers fun _ => Source.areMediated_block h
          · rintro _ ⟨⟩
            exact h

end Inclusions

/-! ### Statements -/

theorem keeps_write_value {v : Value} (h : Written m v) : m.Keeps (write (.value v)) :=
  keeps_write (show (Piece.value v).Mediated m from h)

theorem keeps_writeValue {v : Value}
    (h : ∀ w, (snapshot m.env v).MayReturn w → Written m w) : m.Keeps (writeValue m.env v) := by
  unfold writeValue
  refine .next fun _ => ⟨Leads.bind (Leads.mayReturn inferInstance) fun w hw => ?_⟩
  exact (keeps_write_value (h w hw)).returns

/-- Nothing is to be replaced in what a capture returns. -/
theorem snapshot_captured {v : Value} (h : Captured m v) :
    snapshot m.env v = pure v := by
  cases h with
  | text escaping h => cases escaping <;> rfl
  | nothing => rfl

theorem Yielded.written {v w : Value} (h : Yielded m v) (hcalls : m.blocks.calls = true)
    (hw : (snapshot m.env v).MayReturn w) : Written m w := by
  rcases h with hcaptured | hnative
  · rw [snapshot_captured hcaptured] at hw
    obtain ⟨s, s', hend⟩ := hw
    cases hend
    cases hcaptured with
    | text escaping h => exact .captured escaping fun u hu => h _ hu
    | nothing => exact .nothing
  · exact .called hcalls hnative hw

section Statements

variable [henv : m.FindsMediated] (deeper : Deeper) [hdeeper : deeper.Mediates m]

set_option linter.unusedSectionVars false

mutual

theorem keeps_assign (line : Nat) (v : Value) : ∀ target : Target,
    m.Keeps (assign m.env deeper line v target)
  | .name name => by
      unfold assign
      infer_instance
  | .attr record name => by
      unfold assign
      infer_instance
  | .tuple l targets => by
      have htargets := fun items => keeps_assignAll l items targets
      unfold assign
      infer_instance

theorem keeps_assignAll (line : Nat) (items : List Value) : ∀ targets : List Target,
    m.Keeps (assignAll m.env deeper line items targets)
  | [] => by
      unfold assignAll
      infer_instance
  | target :: rest => by
      have htarget := fun v => keeps_assign line v target
      have hrest := fun items => keeps_assignAll line items rest
      unfold assignAll
      infer_instance

end

attribute [instance] keeps_assign

instance keeps_assignFrom (line : Nat) (target : Target) (e : Expr) :
    m.Keeps (assignFrom m.env deeper line target e) := by
  unfold assignFrom
  refine .next fun v => .next fun place? => .next fun _ => ?_
  split <;> infer_instance

instance keeps_assignInTurn (line : Nat) (assignments : List (Target × Expr)) :
    m.Keeps (assignInTurn m.env deeper line assignments) := by
  induction assignments with
  | nil => exact .pure _
  | cons assignment rest ih =>
      unfold assignInTurn
      infer_instance

/-- A loop writes what its body does, and its body may be entered again. -/
theorem keeps_exec_loop (line : Nat) (target : Target) (items : Expr) (condition : Option Expr)
    (isRecursive : Bool) {body otherwise : List Stmt} (h : areMediated m.blocks body = true)
    (hbody : m.Keeps (execBody m.env deeper body))
    (hotherwise : m.Keeps (execBody m.env deeper otherwise)) :
    m.Keeps (exec m.env deeper (.loop line target items condition isRecursive body otherwise)) := by
  have hall (v : Value) : m.Keeps (enterLoop m.env false none v) :=
    keeps_enterLoop m.env false (fun _ hagain => by cases hagain) v
  have henter (v : Value) : m.Keeps
      (enterLoop m.env true
        (if isRecursive then some ⟨items.lastLine line, target, body⟩ else none) v) := by
    refine keeps_enterLoop m.env true (fun again hagain => ?_) v
    split at hagain
    · cases hagain
      exact h
    · cases hagain
  unfold exec
  refine .next fun v => ?_
  dsimp only
  split
  · infer_instance
  · refine .next fun entered => .next fun kept => .next fun _ => ?_
    infer_instance

/-- A filtered block writes what a filter returns. -/
theorem keeps_exec_filtered (line : Nat) {filter : Expr} (hfilter : filter.isFilter = true)
    (hfilters : m.blocks.filters = true) {body : List Stmt}
    (hbody : m.Keeps (execBody m.env deeper body)) :
    m.Keeps (exec m.env deeper (.filtered line filter body)) := by
  unfold exec
  refine .next fun _ => .next fun _ => .next fun text => ?_
  cases filter with
  | filter l subject name args =>
      have hresult : m.Returns
          (fun v => ∃ input named positional,
            (applyFilter m.env name input named positional).MayReturn v)
          (eval m.env deeper { text } line (.filter l subject name args)) :=
        returns_eval_filter deeper
          (fun input named positional =>
            (Leads.mayReturn inferInstance).mono fun v hv => ⟨input, named, positional, hv⟩)
          text line l subject args
      refine ⟨Leads.bind hresult fun v hv => ?_⟩
      obtain ⟨input, named, positional, hv⟩ := hv
      exact (keeps_writeValue fun w hw => .filtered hfilters hv hw).returns.at_ _
  | _ => cases hfilter

mutual

/-- A mediated statement writes values only by emitting them. -/
theorem keeps_exec : ∀ s : Stmt, s.isMediated m.blocks = true →
    m.Keeps (exec m.env deeper s)
  | .text _ text, _ => by
      unfold exec
      exact keeps_write trivial
  | .emit l e, h => by
      unfold exec
      -- The value of the tag is what the emit filter returned.
      exact ⟨(returns_eval_emission deeper h l).bind fun v hv =>
        (keeps_write_value hv).returns⟩
  | .loop l target items condition isRecursive body otherwise, h => by
      rw [Stmt.isMediated, Bool.and_eq_true] at h
      exact keeps_exec_loop deeper l target items condition isRecursive h.1
        (keeps_execBody body h.1) (keeps_execBody otherwise h.2)
  | .branch l test yes no, h => by
      rw [Stmt.isMediated, Bool.and_eq_true] at h
      have hyes := keeps_execBody yes h.1
      have hno := keeps_execBody no h.2
      unfold exec
      infer_instance
  | .within l assignments body, h => by
      have hbody := keeps_execBody body h
      unfold exec
      infer_instance
  | .assign l target e, _ => by
      unfold exec
      infer_instance
  | .assignBlock l target filter body, h => by
      have hbody := keeps_execBody body h
      unfold exec
      cases filter <;> infer_instance
  | .escaping l enabled body, h => by
      have hbody := keeps_execBody body h
      have hset (escaping : Escaping) : m.Keeps (modify fun s : Store =>
          { s with escaping }) :=
        .update fun s hs => { hs with }
      unfold exec
      infer_instance
  | .filtered l filter body, h => by
      simp only [Stmt.isMediated, Bool.and_eq_true] at h
      obtain ⟨⟨hfilters, hfilter⟩, h⟩ := h
      exact keeps_exec_filtered deeper l hfilter hfilters (keeps_execBody body h)
  | .block l name _ _, _ => by
      unfold exec
      infer_instance
  | .inherit l parent, _ => by
      unfold exec
      infer_instance
  | .inclusion l template ignoreMissing, _ => by
      unfold exec
      infer_instance
  | .importAs l template target, _ => by
      unfold exec
      refine .next fun _ => .next fun _ => .next fun v => .next fun _ => ?_
      infer_instance
  | .importNames l template names, _ => by
      unfold exec
      refine .next fun _ => .next fun _ => .next fun v => .next fun _ => ?_
      refine .bind (.mapM (fun name => ?_) names) fun values => ?_
      · obtain ⟨name, alias_⟩ := name
        infer_instance
      · infer_instance
  | .declare l name params body, h => by
      have hdeclare := keeps_declareRoutine l name params h
      unfold exec
      infer_instance
  | .callBlock l call params body, h => by
      simp only [Stmt.isMediated, Bool.and_eq_true] at h
      obtain ⟨⟨hcalls, hcall⟩, h⟩ := h
      unfold exec
      refine ⟨Leads.bind (returns_eval_call deeper ?_ hcall l) fun v hv => ?_⟩
      · exact keeps_declareRoutine l "caller" params h
      · exact (keeps_writeValue fun w hw => hv.written hcalls hw).returns.at_ _
  | .perform l call, _ => by
      unfold exec
      infer_instance

theorem keeps_execBody : ∀ body : List Stmt, areMediated m.blocks body = true →
    m.Keeps (execBody m.env deeper body)
  | [], _ => by
      unfold execBody
      infer_instance
  | s :: rest, h => by
      rw [areMediated, Bool.and_eq_true] at h
      have hs := keeps_exec s h.1
      have hrest := keeps_execBody rest h.2
      unfold execBody
      infer_instance

end

end Statements

/-! ### Tasks -/

section Tasks

variable [henv : m.FindsMediated] (deeper : Deeper) [hdeeper : deeper.Mediates m]

theorem keeps_runUnit (template : String) {body : List Stmt}
    (h : areMediated m.blocks body = true) :
    m.Keeps (runUnit m.env deeper template body) := by
  have hbody := keeps_execBody deeper body h
  unfold runUnit
  refine .get_bind fun s hs => .bind (.set { hs with parent := ?_ }) fun _ => .next fun _ => ?_
  · intro src hsrc
    cases hsrc
  · refine .get_bind fun t ht => ?_
    dsimp only
    split
    · exact .update fun s' hs' => { hs' with parent := hs.parent }
    · rename_i src hsrc
      have hparent : m.Keeps (deeper (.unit src.name src.body)) :=
        hdeeper.keeps (Source.areMediated_body (ht.parent src hsrc))
      refine .next fun _ => .next fun _ => ?_
      exact .update fun s' hs' => { hs' with parent := hs.parent }

theorem keeps_runAgain {loop : LoopBody} (h : areMediated m.blocks loop.body = true) (v : Value) :
    m.Keeps (runAgain m.env deeper loop v) := by
  have hbody := keeps_execBody deeper loop.body h
  have henter : m.Keeps (enterLoop m.env true (some loop) v) := by
    refine keeps_enterLoop m.env true (fun again hagain => ?_) v
    cases hagain
    exact h
  unfold runAgain
  infer_instance

instance keeps_storeParams (line : Nat) (params : List (Param × Value)) :
    m.Keeps (storeParams m.env deeper line params) := by
  induction params with
  | nil => exact .pure _
  | cons entry rest ih =>
      obtain ⟨p, v⟩ := entry
      unfold storeParams
      refine .next fun _ => ?_
      dsimp only
      split <;> infer_instance

/-- What a macro returns is what it has written. -/
theorem returns_invoke (id : Nat) (args : CallArgs) :
    m.Returns (Captured m) (invoke m.env deeper id args) := by
  unfold invoke
  refine Leads.get.bind fun s hs => ?_
  split
  · exact .pure .nothing
  · rename_i r hr
    have hunit := keeps_runUnit deeper r.template (hs.routines r (List.mem_of_getElem? hr))
    refine .bind_keeps inferInstance fun values => .bind_keeps inferInstance fun _ => ?_
    refine .bind_keeps (.set ?_) fun _ => .bind_keeps inferInstance fun _ => ?_
    · have hnone : EachLayer (areMediated m.blocks · = true) [] := List.forall_mem_nil _
      refine { hs with output := fun pieces hmem piece hpiece => ?_, blocks := hnone }
      obtain ⟨⟩ := List.mem_singleton.mp hmem
      cases hpiece
    · refine .bind_keeps (.update fun t ht => { ht with parent := by simp }) fun _ => ?_
      refine .bind_keeps inferInstance fun _ => .bind_keeps hunit fun _ => ?_
      refine returns_endCapture.bind fun text htext => ?_
      refine .bind_keeps (.update fun t ht => ?_) fun _ => .pure htext
      exact { ht with output := hs.output, blocks := hs.blocks, parent := hs.parent }

/-- Doing a mediated task keeps the output mediated. -/
theorem keeps_perform {task : Task} (h : task.isMediated m.blocks = true) :
    m.Keeps (perform m.env deeper task) := by
  unfold perform
  cases task with
  | unit template body =>
      have hunit := keeps_runUnit deeper template h
      infer_instance
  | again loop v =>
      have hagain := keeps_runAgain deeper h v
      infer_instance
  | invoke id args => exact (returns_invoke deeper id args).keeps

end Tasks

end Eval

section

variable {m : Mediation}

theorem Store.mediated_initial {src : Source} (h : src.isMediated m.blocks = true) :
    (Store.initial src).Mediated m where
  output := by
    intro pieces hmem piece hpiece
    obtain ⟨⟩ := List.mem_singleton.mp hmem
    cases hpiece
  blocks := .blockStacks fun _ => Source.areMediated_block h
  parent := by simp [Store.initial]
  routines := by simp [Store.initial]
  loops := by simp [Store.initial]

theorem Store.Mediated.of_mem_output {s : Store} (h : s.Mediated m) {piece : Piece}
    (hpiece : piece ∈ s.output) : piece.Mediated m := by
  unfold Store.output at hpiece
  split at hpiece
  · rename_i pieces rest hsinks
    exact h.output pieces (by rw [hsinks]; exact List.mem_cons_self) piece
      (List.mem_reverse.mp hpiece)
  · cases hpiece

variable [henv : m.FindsMediated]

/-- On any number of levels, mediated tasks are done in a mediated way. -/
instance mediates_doTask (levels : Nat) : Deeper.Mediates m (doTask m.env levels) := by
  induction levels with
  | zero => exact ⟨fun _ => .fail _, fun _ _ => .fail _⟩
  | succ levels ih =>
      exact ⟨fun h => Eval.keeps_perform (doTask m.env levels) h,
        fun id args => Eval.returns_invoke (doTask m.env levels) id args⟩

/-- However the surroundings answer, all the output of a mediated template is mediated. -/
theorem Source.ends_program {src : Source} (h : src.isMediated m.blocks = true) :
    (src.program m.env).Ends m.answers fun r =>
      ∀ pieces, r = .ok pieces → ∀ piece ∈ pieces, piece.Mediated m := by
  have hunit : m.Keeps (doTask m.env maxLevels (.unit src.name src.body)) :=
    Deeper.Mediates.keeps (Source.areMediated_body h)
  refine Program.Ends.bind (hunit.returns _ (Store.mediated_initial h)) fun r hr => ?_
  rcases r with stop | ⟨v, s⟩
  · intro pieces heq
    cases heq
  · intro pieces heq piece hpiece
    cases heq
    exact hr.2.of_mem_output hpiece

end

end QueryTemplate.Template
