import QueryTemplate.Proofs.RenderSight

/-!
Tidy templates leave the render in sight, and what they evaluate finds it: one lemma for each form of
an expression and of a statement, then the tasks they lead to, on any number of levels. The only way
in which a query filter can come to run outside the render is that `map` applies the emit filter,
which it finds by a name that may have been computed.
-/

namespace QueryTemplate.Template

namespace Bounds

/-- A query filter may come to run outside a render in these ways only. -/
def outsideOnly (p : Outside → Prop) (hmap : p .notGiven → p .mapped) : Bounds where
  answers _ _ _ := True
  stops stop := ∀ how e, stop = .outside how e → p how
  error _ := by
    intro how e heq
    cases heq
  mapError f stop h := by
    intro how e heq
    cases stop with
    | outside how e =>
        cases heq
        exact h how e rfl
    | _ => cases heq
  inMap stop h := by
    intro how e heq
    cases stop with
    | outside how e =>
        cases how
        · cases heq
          exact h .unseen e rfl
        · cases heq
          exact hmap (h .notGiven e rfl)
        · cases heq
          exact h .mapped e rfl
    | _ => cases heq

/-- Tidy templates end so: only where `map` applies it, the emit filter may be without a render. -/
def sighted : Bounds :=
  outsideOnly (· = .mapped) fun h => by cases h

/-- What `map` applies ends so: registered filters find the render. -/
def applied : Bounds :=
  outsideOnly (· ≠ .unseen) fun _ h => by cases h

instance : applied.Allows .notGiven where
  outside e how e' heq := by
    cases heq
    exact fun h => by cases h

end Bounds

/-- Every template that can be found is tidy, and none is missing because of a query filter. -/
class Environment.FindsTidy (env : Environment) : Prop where
  tidy : ∀ {name src}, env.find name = .ok (some src) → src.isTidy = true
  stop : ∀ {name stop}, env.find name = .error stop → Bounds.sighted.stops stop

namespace Eval

variable {n : Nat} {α : Type}

/-! ### Filters -/

section Filters

variable {E : Bounds} {I : Store → Prop}

theorem returns_upTo (args : CallArgs) (most : Nat) :
    Returns E I (fun given => given = args.toList) (args.upTo most) := by
  unfold CallArgs.upTo
  dsimp only
  split
  · exact .fail _
  · exact .pure rfl

/-- The emit filter that is given the render does not fail for the lack of one. -/
theorem keeps_emitFilter_of_given (env : Environment) (v : Value) {args : CallArgs}
    (h : args.positional.head? = some (.object .root)) : Keeps E I (emitFilter env v args) := by
  have hfirst : args.toList[0]? = some (.object .root) := by
    obtain ⟨rest, hrest⟩ := List.head?_eq_some_iff.mp h
    unfold CallArgs.toList
    split <;> rw [hrest] <;> rfl
  unfold emitFilter
  refine ⟨(returns_upTo args 2).bind fun given hgiven => ?_⟩
  rw [hgiven, hfirst]
  have hrest : Keeps E I (do
      let hint ← Argument.optional (Argument.text env) args.toList[1]?
      emit (← snapshot env v) hint) := inferInstance
  exact hrest.returns

/-- The first argument that is passed by position comes first. -/
theorem returns_gather (env : Environment) (v : Value) (rest : List (Bool × Value))
    (named : Option (List NamedPart)) :
    Returns E I (fun given => given.positional.head? = some v)
      (gather env ((false, v) :: rest) named) := by
  have hspread : Returns E I (fun vs : List Value => vs.head? = some v)
      (spreadAll env ((false, v) :: rest)) := by
    unfold spreadAll
    exact .next fun vs => .pure rfl
  have hgiven (named : Option (List (Value × Value))) :
      Returns E I (fun given => given.positional.head? = some v)
        (do return { positional := ← spreadAll env ((false, v) :: rest), named } : Eval CallArgs) :=
    hspread.bind fun vs hvs => .pure hvs
  unfold gather
  cases named with
  | none => exact hgiven none
  | some parts => exact .next fun parts => hgiven (some parts)

/-- What `map` applies cannot fail for the lack of a render it does not find. -/
instance keeps_applied {x : Eval α} [hx : Keeps .applied I x] :
    Keeps .sighted I (mapStop Stop.inMap x) := by
  refine ⟨hx.returns.mapStop ?_ fun stop hstop how e heq => ?_⟩
  · rfl
  cases stop with
  | outside how' e' =>
      cases how' with
      | unseen => exact absurd rfl (hstop .unseen e' rfl)
      | notGiven => cases heq; rfl
      | mapped => cases heq; rfl
  | _ => cases heq

end Filters

theorem keeps_applyFilter_inSight {env : Environment} {name : String} (hname : name ≠ emitName)
    (v : Value) (named : Option (List (Value × Value))) (positional : List Value) :
    Keeps .sighted (Store.InSight n) (applyFilter env name v named positional) := by
  fun_cases applyFilter env name v named positional
  case case1 => exact absurd rfl hname
  case case3 filter hemit hregistered hstock args =>
      have hreads := reads_stockFilter? (E := .sighted) hstock env v args
      infer_instance
  all_goals infer_instance

/-! ### Expressions -/

section Expressions

variable {env : Environment} {deeper : Deeper}

theorem returns_evalPositional_scope {rest : List Arg}
    (hrest : ∀ arg ∈ rest, KeepsAt .sighted (Store.InSight n) env deeper arg.2) (l line : Nat) :
    Returns .sighted (Store.InSight n) (fun given => given.head? = some (false, .object .root))
      (evalPositional env deeper line ((.positional, .var l scopeName) :: rest)) := by
  have hscope : Returns .sighted (Store.InSight n) (fun v => v = .object .root)
      (eval env deeper {} line (.var l scopeName)) := by
    unfold eval
    refine returns_load.bind fun v? hv? => .pure ?_
    rw [hv?]
    rfl
  have hlater := fun l => keeps_evalPositional_of hrest l
  unfold evalPositional
  refine hscope.bind fun v hv => .next fun given => .pure ?_
  rw [hv]
  rfl

/-- The emit filter is given the render that its first argument names. -/
theorem keeps_applyTo_inSight {name : String} {args : List Arg}
    (h : givesRender name args = true)
    (hargs : ∀ arg ∈ args, KeepsAt .sighted (Store.InSight n) env deeper arg.2) (line : Nat)
    (v : Value) : Keeps .sighted (Store.InSight n) (applyTo env deeper name args line v) := by
  by_cases hname : name = emitName
  · subst hname
    unfold givesRender at h
    rw [bne_self_eq_false, Bool.false_or] at h
    split at h
    · rename_i l scope rest
      obtain rfl := eq_of_beq h
      have hrest := (List.forall_mem_cons.mp hargs).2
      have hnamed := fun l => keeps_evalNamed_of hargs l
      unfold applyTo
      refine ⟨(returns_evalPositional_scope hrest l line).bind fun given hgiven => ?_⟩
      obtain ⟨more, rfl⟩ := List.head?_eq_some_iff.mp hgiven
      refine .next fun named => Leads.at_ ?_ _
      refine (returns_gather env _ more named).bind fun given hgiven => ?_
      unfold applyFilter
      rw [if_pos rfl]
      exact (keeps_emitFilter_of_given env v hgiven).returns
    · cases h
  · exact keeps_applyTo (fun _ _ _ => keeps_applyFilter_inSight hname _ _ _) hargs line v

variable [hdeeper : deeper.KeepsSight .sighted]

/-- A tidy expression leaves the render in sight. -/
theorem keeps_eval_inSight {block : BlockInput}
    (hblock : ∀ caller, block.caller = some caller →
      Keeps .sighted (Store.InSight n) caller.declare)
    {e : Expr} (he : e.isTidy = true) (line : Nat) :
    Keeps .sighted (Store.InSight n) (eval env deeper block line e) :=
  keeps_eval_of keeps_applyTo_inSight hblock line e he

theorem keeps_eval_tidy (n : Nat) (env : Environment) (deeper : Deeper)
    [hdeeper : deeper.KeepsSight .sighted] {e : Expr} (he : e.isTidy = true) (text : Value)
    (line : Nat) : Keeps .sighted (Store.InSight n) (eval env deeper ⟨text, none⟩ line e) :=
  keeps_eval_inSight (fun _ hcaller => by cases hcaller) he line

end Expressions

/-! ### Other templates -/

section Inclusions

variable {env : Environment} {deeper : Deeper} [hdeeper : deeper.KeepsSight .sighted]

/-- Which closure the innermost frame has does not matter. -/
theorem inSight_setClosure {s : Store} (hs : s.InSight n) (closure : Option Nat) :
    { s with frames := setClosure closure s.frames }.InSight n := by
  cases hframes : s.frames with
  | nil =>
      have hdepth := hs.depth
      rw [hframes] at hdepth
      cases hdepth
  | cons f rest => exact inSight_replace hs hframes (inSight_locals hs hframes) hs.closures

theorem keeps_runIncluded_inSight {src : Source} (h : src.isTidy = true) :
    Keeps .sighted (Store.InSight n) (runIncluded deeper src) := by
  have hbody : Keeps .sighted (Store.InSight n) (deeper (.unit src.name src.body)) :=
    hdeeper.keeps n (Source.areTidy_body h)
  unfold runIncluded
  refine .get_bind fun s hs => .bind (.set ?_) fun _ => ?_
  · exact
      { inSight_setClosure hs none with blocks := .blockStacks fun _ => Source.areTidy_block h }
  refine .next fun _ => .next fun _ => .update fun s' hs' => ?_
  exact { inSight_setClosure hs' _ with blocks := hs.blocks }

variable [henv : env.FindsTidy]

instance keeps_includeFirst_inSight (ignoreMissing : Bool) (tried choices : List Value) :
    Keeps .sighted (Store.InSight n) (includeFirst env deeper ignoreMissing tried choices) := by
  induction choices generalizing tried with
  | nil =>
      unfold includeFirst
      infer_instance
  | cons choice rest ih =>
      unfold includeFirst
      split
      · infer_instance
      · split
        · exact .stop (henv.stop ‹_›)
        · exact ih _
        · exact keeps_runIncluded_inSight (henv.tidy ‹_›)

instance keeps_includeTemplate_inSight (choice : Value) (ignoreMissing : Bool) :
    Keeps .sighted (Store.InSight n) (includeTemplate env deeper choice ignoreMissing) := by
  unfold includeTemplate
  refine .next fun choices? => ?_
  split <;> infer_instance

instance keeps_extend_inSight (v : Value) :
    Keeps .sighted (Store.InSight n) (extend env v) := by
  unfold extend
  refine .next fun s => ?_
  dsimp only
  split
  · infer_instance
  · split
    · infer_instance
    · split
      · infer_instance
      · split
        · exact .stop (henv.stop ‹_›)
        · infer_instance
        · rename_i src hfind
          have h := henv.tidy hfind
          refine .bind (.update fun s hs => { hs with parent := ?_, blocks := ?_ }) fun _ =>
            inferInstance
          · exact hs.blocks.addLayers fun _ => Source.areTidy_block h
          · rintro _ ⟨⟩
            exact h

end Inclusions

/-! ### Statements -/

section Statements

variable (env : Environment) [henv : env.FindsTidy] (deeper : Deeper)
  [hdeeper : deeper.KeepsSight .sighted]

set_option linter.unusedSectionVars false

mutual

theorem keeps_assign_inSight (n line : Nat) (v : Value) : ∀ target : Target, target.isTidy = true →
    Keeps .sighted (Store.InSight n) (assign env deeper line v target)
  | .name name, h => by
      unfold assign
      exact keeps_store_inSight (bne_iff_ne.mp h) v
  | .attr record name, h => by
      have hrecord := fun line => keeps_eval_tidy n env deeper (e := record) h .undefined line
      unfold assign
      infer_instance
  | .tuple l targets, h => by
      have htargets := fun items => keeps_assignAll_inSight n l items targets h
      unfold assign
      infer_instance

theorem keeps_assignAll_inSight (n line : Nat) (items : List Value) :
    ∀ targets : List Target, areTidyTargets targets = true →
      Keeps .sighted (Store.InSight n) (assignAll env deeper line items targets)
  | [], _ => by
      unfold assignAll
      infer_instance
  | target :: rest, h => by
      rw [areTidyTargets, Bool.and_eq_true] at h
      have htarget := fun v => keeps_assign_inSight n line v target h.1
      have hrest := fun items => keeps_assignAll_inSight n line items rest h.2
      unfold assignAll
      infer_instance

end

theorem keeps_assignFrom_inSight (line : Nat) {target : Target} (htarget : target.isTidy = true)
    {e : Expr} (he : e.isTidy = true) :
    Keeps .sighted (Store.InSight n) (assignFrom env deeper line target e) := by
  have he := keeps_eval_tidy n env deeper he .undefined line
  have htarget := fun v => keeps_assign_inSight env deeper n line v target htarget
  unfold assignFrom
  refine .next fun v => .next fun place? => .next fun _ => ?_
  split <;> infer_instance

theorem keeps_assignInTurn_inSight (line : Nat) {assignments : List (Target × Expr)}
    (h : ∀ assignment ∈ assignments, assignment.1.isTidy = true ∧ assignment.2.isTidy = true) :
    Keeps .sighted (Store.InSight n) (assignInTurn env deeper line assignments) := by
  induction assignments with
  | nil => exact .pure _
  | cons assignment rest ih =>
      obtain ⟨⟨htarget, he⟩, hrest⟩ := List.forall_mem_cons.mp h
      have hfirst := keeps_assignFrom_inSight env deeper (n := n) line htarget he
      have hrest := ih hrest
      unfold assignInTurn
      infer_instance

/-- What runs in the frame of a loop and leaves it at the end. -/
theorem keeps_looped_inSight {isVisible : Bool} {again : Option LoopBody}
    (hagain : ∀ loop, again = some loop → loop.isTidy = true) (line : Nat) (v : Value)
    {run : Nat × List Value → Eval α}
    (hrun : ∀ entered, Leads .sighted (Store.InSight (n + 1)) (Store.InSight n) (fun _ => True)
      (run entered)) :
    Keeps .sighted (Store.InSight n) (at_ line (enterLoop env isVisible again v) >>= run) :=
  ⟨((leads_enterLoop env isVisible hagain v).at_ line).bind fun entered _ => hrun entered⟩

/-- A loop leaves the render in sight if its body does, in the frame of the loop. -/
theorem keeps_exec_loop_inSight (line : Nat) {target : Target} (htarget : target.isTidy = true)
    {items : Expr} (hitems : items.isTidy = true) {condition : Option Expr}
    (hcondition : isTidyOption condition = true) (isRecursive : Bool) {body otherwise : List Stmt}
    (hbody : areTidy body = true)
    (hrun : Keeps .sighted (Store.InSight (n + 1)) (execBody env deeper body))
    (hotherwise : Keeps .sighted (Store.InSight n) (execBody env deeper otherwise)) :
    Keeps .sighted (Store.InSight n)
      (exec env deeper (.loop line target items condition isRecursive body otherwise)) := by
  have hitems := keeps_eval_tidy n env deeper hitems .undefined line
  have hassign := fun v => keeps_assign_inSight env deeper (n + 1) line v target htarget
  have hagain : ∀ loop,
      (if isRecursive then some (⟨items.lastLine line, target, body⟩ : LoopBody) else none) =
        some loop → loop.isTidy = true := by
    intro loop heq
    split at heq
    · cases heq
      exact Bool.and_eq_true_iff.mpr ⟨htarget, hbody⟩
    · cases heq
  have hlooped (v : Value) : Keeps .sighted (Store.InSight n) (do
      let entered ← at_ (items.lastLine line) (enterLoop env true
        (if isRecursive then some ⟨items.lastLine line, target, body⟩ else none) v)
      runItems entered.1 (fun item => do
        assign env deeper line item target
        execBody env deeper body) 0 entered.2
      popFrame
      if entered.2.isEmpty then execBody env deeper otherwise) :=
    keeps_looped_inSight env hagain _ v fun _ =>
      .next fun _ => leads_popFrame.then_keeps fun _ => inferInstance
  unfold exec
  refine .next fun v => ?_
  cases condition with
  | none => exact hlooped _
  | some test =>
      -- The items are looked through first, in a frame of their own.
      have htest := keeps_eval_tidy (n + 1) env deeper (e := test) hcondition .undefined line
      refine keeps_looped_inSight env (fun _ heq => by cases heq) _ v fun entered => ?_
      refine .next fun kept => leads_popFrame.then_keeps fun _ => ?_
      exact .next fun v => hlooped v

/-- The names that are imported are stored under others than the one of the render. -/
theorem keeps_exec_importNames_inSight (line : Nat) {template : Expr}
    (htemplate : template.isTidy = true) {names : List (String × String)}
    (hnames : ∀ entry ∈ names, (entry.2 != scopeName) = true) :
    Keeps .sighted (Store.InSight n) (exec env deeper (.importNames line template names)) := by
  have htemplate := keeps_eval_tidy (n + 1) env deeper htemplate .undefined line
  have hnamed : ∀ entry ∈ names, Returns .sighted (Store.InSight (n + 1))
      (fun value : String × Value => value.1 ≠ scopeName)
      (do return (entry.2, .ofOption (← load entry.1))) :=
    fun entry hentry => .next fun _ => .pure (bne_iff_ne.mp (hnames entry hentry))
  unfold exec
  refine .next fun _ => ⟨((leads_pushFrame .nil).at_ line).bind fun _ _ => ?_⟩
  refine .next fun v => .next fun _ => (Leads.mapM hnamed).bind fun values hvalues => ?_
  have hstore := keeps_storeAll_inSight (E := .sighted) (n := n) hvalues
  exact leads_popFrame.then_keeps fun _ => inferInstance

mutual

/-- A tidy statement leaves the render in sight. -/
theorem keeps_exec_inSight (n : Nat) : ∀ s : Stmt, s.isTidy = true →
    Keeps .sighted (Store.InSight n) (exec env deeper s)
  | .text _ text, _ => by
      unfold exec
      infer_instance
  | .emit l e, h => by
      have he := keeps_eval_tidy n env deeper h .undefined l
      unfold exec
      infer_instance
  | .loop l target items condition isRecursive body otherwise, h => by
      simp only [Stmt.isTidy, Bool.and_eq_true] at h
      obtain ⟨⟨⟨⟨htarget, hitems⟩, hcondition⟩, hbody⟩, hotherwise⟩ := h
      exact keeps_exec_loop_inSight env deeper l htarget hitems hcondition isRecursive hbody
        (keeps_execBody_inSight (n + 1) body hbody)
        (keeps_execBody_inSight n otherwise hotherwise)
  | .branch l test yes no, h => by
      simp only [Stmt.isTidy, Bool.and_eq_true] at h
      have htest := keeps_eval_tidy n env deeper h.1.1 .undefined l
      have hyes := keeps_execBody_inSight n yes h.1.2
      have hno := keeps_execBody_inSight n no h.2
      unfold exec
      infer_instance
  | .within l assignments body, h => by
      rw [Stmt.isTidy, Bool.and_eq_true, List.all_eq_true] at h
      have hassignments := keeps_assignInTurn_inSight env deeper (n := n + 1) l
        fun assignment hmem => Bool.and_eq_true_iff.mp (h.1 assignment hmem)
      have hbody := keeps_execBody_inSight (n + 1) body h.2
      unfold exec
      -- The frame of the block is gone again behind it.
      refine ⟨((leads_pushFrame .nil).at_ l).bind fun _ _ => ?_⟩
      exact .next fun _ => .next fun _ => leads_popFrame
  | .assign l target e, h => by
      rw [Stmt.isTidy, Bool.and_eq_true] at h
      unfold exec
      exact keeps_assignFrom_inSight env deeper l h.1 h.2
  | .assignBlock l target filter body, h => by
      simp only [Stmt.isTidy, Bool.and_eq_true] at h
      have htarget := fun v => keeps_assign_inSight env deeper n l v target h.1.1
      have hbody := keeps_execBody_inSight n body h.2
      unfold exec
      cases filter with
      | none => infer_instance
      | some e =>
          have he := fun text => keeps_eval_tidy n env deeper (e := e) h.1.2 text l
          infer_instance
  | .escaping l enabled body, h => by
      rw [Stmt.isTidy, Bool.and_eq_true] at h
      have henabled := keeps_eval_tidy n env deeper h.1 .undefined l
      have hbody := keeps_execBody_inSight n body h.2
      have hset (escaping : Escaping) : Keeps .sighted (Store.InSight n) (modify fun s : Store =>
          { s with escaping }) :=
        .update fun s hs => { hs with }
      unfold exec
      infer_instance
  | .filtered l filter body, h => by
      rw [Stmt.isTidy, Bool.and_eq_true] at h
      have hfilter := fun text => keeps_eval_tidy n env deeper h.1 text l
      have hbody := keeps_execBody_inSight n body h.2
      have hwrite (v : Value) : Keeps .sighted (Store.InSight n) (writeValue env v) := by
        unfold writeValue
        infer_instance
      unfold exec
      infer_instance
  | .block l name _ _, _ => by
      unfold exec
      infer_instance
  | .inherit l parent, h => by
      have hparent := keeps_eval_tidy n env deeper h .undefined l
      unfold exec
      infer_instance
  | .inclusion l template ignoreMissing, h => by
      have htemplate := keeps_eval_tidy n env deeper h .undefined l
      unfold exec
      infer_instance
  | .importAs l template target, h => by
      rw [Stmt.isTidy, Bool.and_eq_true] at h
      have htemplate := keeps_eval_tidy (n + 1) env deeper h.1 .undefined l
      have htarget := fun v => keeps_assign_inSight env deeper n l v target h.2
      unfold exec
      refine .next fun _ => ⟨((leads_pushFrame .nil).at_ l).bind fun _ _ => ?_⟩
      refine .next fun v => .next fun _ => .next fun entries => ?_
      exact leads_popFrame.then_keeps fun _ => inferInstance
  | .importNames l template names, h => by
      rw [Stmt.isTidy, Bool.and_eq_true, List.all_eq_true] at h
      exact keeps_exec_importNames_inSight env deeper l h.1 h.2
  | .declare l name params body, h => by
      simp only [Stmt.isTidy, Bool.and_eq_true] at h
      have hdeclare := keeps_declareRoutine_inSight (E := .sighted) (n := n) l name h.1.2 h.2
      have hstore := fun v => keeps_store_inSight (E := .sighted) (n := n) (bne_iff_ne.mp h.1.1) v
      unfold exec
      infer_instance
  | .callBlock l call params body, h => by
      simp only [Stmt.isTidy, Bool.and_eq_true] at h
      have hdeclare := keeps_declareRoutine_inSight (E := .sighted) (n := n) l "caller" h.1.2 h.2
      unfold exec writeValue
      -- The call may declare the macro that is made of the block, and no other one.
      refine .bind (keeps_eval_inSight (fun caller hcaller => ?_) h.1.1 l) fun v => inferInstance
      cases hcaller
      exact hdeclare
  | .perform l call, h => by
      have hcall := keeps_eval_tidy n env deeper h .undefined l
      unfold exec
      infer_instance

theorem keeps_execBody_inSight (n : Nat) : ∀ body : List Stmt, areTidy body = true →
    Keeps .sighted (Store.InSight n) (execBody env deeper body)
  | [], _ => by
      unfold execBody
      infer_instance
  | s :: rest, h => by
      rw [areTidy, Bool.and_eq_true] at h
      have hs := keeps_exec_inSight n s h.1
      have hrest := keeps_execBody_inSight n rest h.2
      unfold execBody
      infer_instance

end

end Statements

/-! ### Tasks -/

/-- A macro that is called has the render in sight, wherever it is called from. -/
theorem inSight_enterRoutine {s : Store} (hs : s.InSight n) (r : Routine) (args : CallArgs) :
    (enterRoutine r args s).InSight 1 := by
  have hcaller (v : Value) : Unshadowed [("caller", v)] := by
    intro w hw
    rw [List.lookup_cons, beq_false_of_ne (by decide)] at hw
    cases hw
  refine
    { hs with
      depth := rfl
      root := rfl
      locals := List.forall_mem_cons.mpr ⟨?_, List.forall_mem_singleton.mpr .nil⟩
      blocks := List.forall_mem_nil _ }
  dsimp only
  split
  · exact hcaller _
  · exact .nil

/-- Behind a call the render is in sight as it was before. -/
theorem inSight_leaveRoutine {m : Nat} {before s : Store} (hbefore : before.InSight n)
    (hs : s.InSight m) : (leaveRoutine before s).InSight n :=
  { hs with
    depth := hbefore.depth
    root := hbefore.root
    locals := hbefore.locals
    blocks := hbefore.blocks
    parent := hbefore.parent }

section Tasks

variable (env : Environment) [henv : env.FindsTidy] (deeper : Deeper)
  [hdeeper : deeper.KeepsSight .sighted]

set_option linter.unusedSectionVars false

theorem keeps_runUnit_inSight (n : Nat) (template : String) {body : List Stmt}
    (h : areTidy body = true) :
    Keeps .sighted (Store.InSight n) (runUnit env deeper template body) := by
  have hbody := keeps_execBody_inSight env deeper n body h
  unfold runUnit
  refine .get_bind fun s hs => .bind (.set { hs with parent := ?_ }) fun _ => .next fun _ => ?_
  · intro src hsrc
    cases hsrc
  · refine .get_bind fun t ht => ?_
    dsimp only
    split
    · exact .update fun s' hs' => { hs' with parent := hs.parent }
    · rename_i src hsrc
      have hparent : Keeps .sighted (Store.InSight n) (deeper (.unit src.name src.body)) :=
        hdeeper.keeps n (Source.areTidy_body (ht.parent src hsrc))
      refine .next fun _ => .next fun _ => ?_
      exact .update fun s' hs' => { hs' with parent := hs.parent }

theorem keeps_runAgain_inSight (n : Nat) {loop : LoopBody} (h : loop.isTidy = true) (v : Value) :
    Keeps .sighted (Store.InSight n) (runAgain env deeper loop v) := by
  have hboth := Bool.and_eq_true_iff.mp h
  have htarget := fun line v => keeps_assign_inSight env deeper (n + 1) line v loop.target hboth.1
  have hbody := keeps_execBody_inSight env deeper (n + 1) loop.body hboth.2
  have hagain : ∀ body, some loop = some body → body.isTidy = true := by
    rintro _ ⟨⟩
    exact h
  unfold runAgain
  exact keeps_looped_inSight env hagain _ v fun _ => .next fun _ => leads_popFrame

theorem keeps_storeParams_inSight (n line : Nat) {params : List (Param × Value)}
    (h : ∀ entry ∈ params, entry.1.isTidy = true) :
    Keeps .sighted (Store.InSight n) (storeParams env deeper line params) := by
  induction params with
  | nil => exact .pure _
  | cons entry rest ih =>
      obtain ⟨⟨name, fallback⟩, v⟩ := entry
      obtain ⟨hentry, hrest⟩ := List.forall_mem_cons.mp h
      obtain ⟨hname, hfallback⟩ := Bool.and_eq_true_iff.mp hentry
      have hrest := ih hrest
      have hstore := fun v => keeps_store_inSight (E := .sighted) (n := n) (bne_iff_ne.mp hname) v
      unfold storeParams
      refine .next fun _ => ?_
      cases fallback with
      | none => infer_instance
      | some e =>
          have he := keeps_eval_tidy n env deeper (e := e) hfallback .undefined line
          infer_instance

theorem keeps_invoke_inSight (n id : Nat) (args : CallArgs) :
    Keeps .sighted (Store.InSight n) (invoke env deeper id args) := by
  unfold invoke
  refine .get_bind fun s hs => ?_
  split
  · infer_instance
  · rename_i r hr
    obtain ⟨hparams, hbody⟩ := Bool.and_eq_true_iff.mp (hs.routines r (List.mem_of_getElem? hr))
    have hparams (values : List Value) :
        ∀ entry ∈ r.params.zip values, entry.1.isTidy = true :=
      fun entry hentry => List.all_eq_true.mp hparams _ (List.of_mem_zip hentry).1
    have hstore := fun values => keeps_storeParams_inSight env deeper 1 r.line (hparams values)
    have hunit := keeps_runUnit_inSight env deeper 1 r.template hbody
    have hbegin : Keeps .sighted (Store.InSight 1) (modify fun s : Store =>
        { s with template := r.template, parent := none }) :=
      .update fun t ht => { ht with parent := fun _ h => by cases h }
    refine ⟨.next fun values => .next fun _ => ?_⟩
    refine (Leads.set (inSight_enterRoutine hs r args)).bind fun _ _ => ?_
    refine .next fun _ => .next fun _ => .next fun _ => .next fun _ => .next fun text => ?_
    refine (Leads.update fun t ht => ?_).then_keeps fun _ => inferInstance
    exact inSight_leaveRoutine hs ht

theorem keeps_perform_inSight (n : Nat) {task : Task} (h : task.isTidy = true) :
    Keeps .sighted (Store.InSight n) (perform env deeper task) := by
  unfold perform
  cases task with
  | unit template body =>
      have hunit := keeps_runUnit_inSight env deeper n template h
      infer_instance
  | again loop v =>
      have hagain := keeps_runAgain_inSight env deeper n h v
      infer_instance
  | invoke id args => exact keeps_invoke_inSight env deeper n id args

end Tasks

end Eval

/-- At the beginning there is only the frame of the render. -/
theorem Store.inSight_initial {src : Source} (h : src.isTidy = true) :
    (Store.initial src).InSight 0 where
  depth := rfl
  root := rfl
  locals := List.forall_mem_singleton.mpr .nil
  closures := List.forall_mem_nil _
  blocks := .blockStacks fun _ => Source.areTidy_block h
  parent := fun _ heq => by cases heq
  routines := List.forall_mem_nil _
  loops := List.forall_mem_nil _

section

variable {env : Environment} [henv : env.FindsTidy]

/-- On any number of levels, tidy tasks leave the render in sight. -/
instance keepsSight_doTask (levels : Nat) : Deeper.KeepsSight .sighted (doTask env levels) := by
  induction levels with
  | zero => exact ⟨fun _ _ _ => .fail _⟩
  | succ levels ih => exact ⟨fun n _ h => Eval.keeps_perform_inSight env (doTask env levels) n h⟩

/-- However the surroundings answer, a tidy template ends in a query filter that runs outside the
render only where `map` applies the emit filter. -/
theorem Source.ends_program_inSight {src : Source} (h : src.isTidy = true) :
    (src.program env).Ends (fun _ _ _ => True) fun r =>
      ∀ how e, r = .error (.outside how e) → how = .mapped := by
  have hunit : Eval.Keeps .sighted (Store.InSight 0)
      (doTask env maxLevels (.unit src.name src.body)) :=
    Deeper.KeepsSight.keeps 0 (Source.areTidy_body h)
  refine Program.Ends.bind (hunit.returns _ (Store.inSight_initial h)) fun r hr => ?_
  rcases r with stop | ⟨v, s⟩
  · intro how e heq
    cases heq
    exact hr how e rfl
  · intro how e heq
    cases heq

end

end QueryTemplate.Template
