import QueryTemplate.Proofs.Evaluating

/-!
Where the values come from that a template writes. In a mediated template every expression tag ends
in the emit filter. What it writes has been emitted then, with two exceptions: a filter block writes
what its filter returns, and a call block what its call returns, which is the text of a macro unless
a function of the template language or a method of a loop is called. `Written` says this of a value,
and `Store.Mediated` of the output of a template, wherever it goes.
-/

namespace QueryTemplate.Template

/-- The blocks that write values besides the expression tags. -/
structure WritingBlocks where
  filters : Bool
  calls : Bool

def Expr.isFilter : Expr → Bool
  | .filter _ _ _ _ => true
  | _ => false

def Expr.isCall : Expr → Bool
  | .call _ _ _ => true
  | _ => false

/-- Whether an expression ends in the emit filter. -/
def Expr.isEmission : Expr → Bool
  | .filter _ (some _) name _ => name == emitName
  | _ => false

mutual

/-- Whether every expression tag ends in the emit filter, and there are no other blocks that write
values than the given ones. -/
def Stmt.isMediated (blocks : WritingBlocks) : Stmt → Bool
  | .emit _ e => e.isEmission
  | .loop _ _ _ _ _ body otherwise => areMediated blocks body && areMediated blocks otherwise
  | .branch _ _ yes no => areMediated blocks yes && areMediated blocks no
  | .within _ _ body => areMediated blocks body
  | .assignBlock _ _ _ body => areMediated blocks body
  | .escaping _ _ body => areMediated blocks body
  | .filtered _ filter body => blocks.filters && filter.isFilter && areMediated blocks body
  | .block _ _ _ body => areMediated blocks body
  | .declare _ _ _ body => areMediated blocks body
  | .callBlock _ call _ body => blocks.calls && call.isCall && areMediated blocks body
  | _ => true

def areMediated (blocks : WritingBlocks) : List Stmt → Bool
  | [] => true
  | s :: rest => s.isMediated blocks && areMediated blocks rest

end

def Source.isMediated (blocks : WritingBlocks) (src : Source) : Bool :=
  areMediated blocks src.body && src.blocks.all fun (_, block) => areMediated blocks block.body

def Task.isMediated (blocks : WritingBlocks) : Task → Bool
  | .unit _ body => areMediated blocks body
  | .again loop _ => areMediated blocks loop.body
  | .invoke _ _ => true

theorem Source.areMediated_body {blocks : WritingBlocks} {src : Source}
    (h : src.isMediated blocks = true) : areMediated blocks src.body = true := by
  rw [Source.isMediated, Bool.and_eq_true] at h
  exact h.1

theorem Source.areMediated_block {blocks : WritingBlocks} {src : Source}
    (h : src.isMediated blocks = true) {entry : String × Block} (hentry : entry ∈ src.blocks) :
    areMediated blocks entry.2.body = true := by
  rw [Source.isMediated, Bool.and_eq_true, List.all_eq_true] at h
  exact h.2 entry hentry

/-- What the output of an evaluation may depend on: the environment, the answers to emissions, and
the blocks that write values. -/
structure Mediation where
  env : Environment
  answers : Answers
  blocks : WritingBlocks

/-- What a call may return that does not run a part of a template. -/
inductive Native (env : Environment) : Value → Prop where
  /-- The result of a function of the template language. -/
  | function {f : GlobalFunction} {args : CallArgs} {v : Value}
    (h : (Eval.callGlobal env f args).MayReturn v) : Native env v
  /-- The result of `loop.changed`. -/
  | changed (isChanged : Bool) : Native env (.bool isChanged)
  /-- The result of `loop.cycle`, which is one of the arguments. -/
  | cycle (given : List Value) (i : Nat) : Native env (.ofOption given[i]?)

/-- Where a value comes from that is written. -/
inductive Written (m : Mediation) : Value → Prop where
  /-- An answer to an emission. -/
  | emitted {v : Value} {hint : Option String} {text : String} (h : m.answers v hint text) :
    Written m (.safe text)
  /-- Text captured from output. -/
  | captured (escaping : Escaping) {pieces : List Piece}
    (h : ∀ v, .value v ∈ pieces → Written m v) :
    Written m (Eval.captured escaping (Eval.outputOf pieces))
  /-- Nothing, where no output was captured. -/
  | nothing : Written m .undefined
  /-- What a call block gets from a call that runs no part of a template. -/
  | called (hcalls : m.blocks.calls = true) {v w : Value} (hv : Native m.env v)
    (hw : (Eval.snapshot m.env v).MayReturn w) : Written m w
  /-- What the filter of a filter block returns. -/
  | filtered (hfilters : m.blocks.filters = true) {name : String} {input v w : Value}
    {named : Option (List (Value × Value))} {positional : List Value}
    (hv : (Eval.applyFilter m.env name input named positional).MayReturn v)
    (hw : (Eval.snapshot m.env v).MayReturn w) : Written m w

/-- Text of the template, or a value that may be written. -/
def Piece.Mediated (m : Mediation) : Piece → Prop
  | .literal _ => True
  | .value v => Written m v

/-- Text captured from mediated output, or nothing. -/
inductive Captured (m : Mediation) : Value → Prop where
  | text (escaping : Escaping) {pieces : List Piece} (h : ∀ piece ∈ pieces, piece.Mediated m) :
    Captured m (Eval.captured escaping (Eval.outputOf pieces))
  | nothing : Captured m .undefined

/-- Every piece of output is mediated, and so is what may be run later. -/
structure Store.Mediated (m : Mediation) (s : Store) : Prop where
  output : ∀ pieces, some pieces ∈ s.sinks → ∀ piece ∈ pieces, piece.Mediated m
  blocks : EachLayer (areMediated m.blocks · = true) s.blocks
  parent : ∀ src, s.parent = some src → src.isMediated m.blocks = true
  routines : ∀ r ∈ s.routines, areMediated m.blocks r.body = true
  loops : ∀ l ∈ s.loops, ∀ body, l.again = some body → areMediated m.blocks body.body = true

namespace Mediation

variable {α : Type}

abbrev Keeps (m : Mediation) (x : Eval α) : Prop :=
  Eval.Keeps (.allowing m.answers) (Store.Mediated m) x

abbrev Returns (m : Mediation) (Q : α → Prop) (x : Eval α) : Prop :=
  Eval.Returns (.allowing m.answers) (Store.Mediated m) Q x

/-- Every template that can be found is mediated. -/
class FindsMediated (m : Mediation) : Prop where
  find : ∀ {name src}, m.env.find name = .ok (some src) → src.isMediated m.blocks = true

end Mediation

/-- Mediated tasks are done in a mediated way, and macros return what they have written. -/
class Deeper.Mediates (m : Mediation) (deeper : Deeper) : Prop where
  keeps : ∀ {task : Task}, task.isMediated m.blocks = true → m.Keeps (deeper task)
  returns : ∀ id args, m.Returns (Captured m) (deeper (.invoke id args))

namespace Eval

variable {m : Mediation}

/-! ### Output -/

theorem keeps_write {piece : Piece} (h : piece.Mediated m) :
    m.Keeps (write piece) := by
  refine .update fun _ hs => ?_
  split
  · rename_i pieces rest hsinks
    refine { hs with output := fun written hmem piece hpiece => ?_ }
    rcases List.mem_cons.mp hmem with heq | hrest
    · cases heq
      rcases List.mem_cons.mp hpiece with rfl | hbefore
      · exact h
      · exact hs.output pieces (by rw [hsinks]; exact List.mem_cons_self) piece hbefore
    · exact hs.output written (by rw [hsinks]; exact List.mem_cons_of_mem _ hrest) piece hpiece
  · exact hs

instance keeps_beginCapture : m.Keeps beginCapture := by
  refine .update fun s hs => { hs with output := fun pieces hmem piece hpiece => ?_ }
  rcases List.mem_cons.mp hmem with heq | hrest
  · cases heq
    cases hpiece
  · exact hs.output pieces hrest piece hpiece

instance keeps_beginDiscard : m.Keeps beginDiscard := by
  refine .update fun s hs => { hs with output := fun pieces hmem piece hpiece => ?_ }
  rcases List.mem_cons.mp hmem with heq | hrest
  · cases heq
  · exact hs.output pieces hrest piece hpiece

/-- Less output is mediated, too. -/
theorem mediated_rest {s : Store} {sink : Option (List Piece)} {rest : List (Option (List Piece))}
    (hs : s.Mediated m) (hsinks : s.sinks = sink :: rest) : { s with sinks := rest }.Mediated m :=
  { hs with output := fun pieces hmem =>
      hs.output pieces (by rw [hsinks]; exact List.mem_cons_of_mem _ hmem) }

/-- What is captured is mediated output. -/
theorem returns_endCapture : m.Returns (Captured m) endCapture := by
  unfold endCapture
  refine Leads.get.bind fun s hs => ?_
  split
  · rename_i pieces rest hsinks
    have hpieces := hs.output pieces (by rw [hsinks]; exact List.mem_cons_self)
    exact .bind_keeps (.set (mediated_rest hs hsinks)) fun _ => .pure (.text _ hpieces)
  · rename_i hsinks
    exact .bind_keeps (.set (mediated_rest hs hsinks)) fun _ => .pure .nothing
  · exact .pure .nothing

instance keeps_endCapture : m.Keeps endCapture := returns_endCapture.keeps

/-! ### Frames -/

instance keeps_pushFrame (f : Frame) : m.Keeps (pushFrame f) := by
  unfold pushFrame
  exact .next fun _ => .update fun s hs => { hs with }

instance keeps_popFrame : m.Keeps popFrame :=
  .update fun _ hs => { hs with }

instance keeps_clearFrame : m.Keeps clearFrame := by
  refine .update fun s hs => ?_
  split
  · exact hs
  · exact { hs with }

instance keeps_deepen (weight : Nat) : m.Keeps (deepen weight) := by
  unfold deepen
  exact .bind (.update fun s hs => { hs with }) fun _ => inferInstance

instance keeps_store (name : String) (v : Value) : m.Keeps (store name v) := by
  refine .update fun s hs => ?_
  split
  · exact hs
  · exact { hs with }

instance keeps_storeAll (values : List (String × Value)) :
    m.Keeps (storeAll values) := by
  induction values with
  | nil => exact .pure _
  | cons entry rest ih =>
      unfold storeAll
      infer_instance

instance keeps_noteSource (name : String) (place : Place) :
    m.Keeps (noteSource name place) := by
  refine .update fun s hs => ?_
  split
  · exact hs
  · exact { hs with }

instance keeps_frameClosure : m.Keeps frameClosure := by
  unfold frameClosure
  refine .get_bind fun s hs => ?_
  split
  · infer_instance
  · split
    · infer_instance
    · exact .bind (.set { hs with }) fun _ => inferInstance

instance keeps_enclose (id : Nat) (name : String) : m.Keeps (enclose id name) := by
  have htake (v : Value) : m.Keeps (modify fun s : Store =>
      { s with closures := s.closures.modify id (setClosureValue name v) }) :=
    .update fun s hs => { hs with }
  unfold enclose
  refine .next fun s => ?_
  dsimp only
  split <;> infer_instance

/-! ### Loops and macros -/

theorem mediated_modify_loops {s : Store} (hs : s.Mediated m) (id : Nat) {g : LoopState → LoopState}
    (hg : ∀ l, (g l).again = l.again) : { s with loops := s.loops.modify id g }.Mediated m :=
  { hs with loops := again_of_mem_modify hs.loops id hg }

instance keeps_setIndex (id index : Nat) : m.Keeps (setIndex id index) :=
  .update fun _ hs => mediated_modify_loops hs id fun _ => rfl

instance keeps_runItems (id : Nat) {step : Value → Eval Unit}
    [∀ v, m.Keeps (step v)] (index : Nat) (items : List Value) :
    m.Keeps (runItems id step index items) := by
  induction items generalizing index with
  | nil =>
      unfold runItems
      infer_instance
  | cons v rest ih =>
      unfold runItems
      infer_instance

instance keeps_keepItems (id : Nat) {test : Value → Eval Bool}
    [∀ v, m.Keeps (test v)] (index : Nat) (items : List Value) :
    m.Keeps (keepItems id test index items) := by
  induction items generalizing index with
  | nil =>
      unfold keepItems
      infer_instance
  | cons v rest ih =>
      unfold keepItems
      infer_instance

theorem keeps_enterLoop (env : Environment) (isVisible : Bool) {again : Option LoopBody}
    (hagain : ∀ body, again = some body → areMediated m.blocks body.body = true) (v : Value) :
    m.Keeps (enterLoop env isVisible again v) := by
  have hnew {s : Store} (hs : s.Mediated m) {state : LoopState} (hstate : state.again = again) :
      { s with loops := s.loops ++ [state] }.Mediated m := by
    refine { hs with loops := fun l hl body hbody => ?_ }
    rcases List.mem_append.mp hl with hbefore | hlast
    · exact hs.loops l hbefore body hbody
    · obtain rfl := List.mem_singleton.mp hlast
      exact hagain body (hstate ▸ hbody)
  unfold enterLoop
  refine .next fun items => .next fun loop? => ?_
  dsimp only
  split
  all_goals
    refine .get_bind fun s hs => ?_
    exact .bind (.set (hnew hs rfl)) fun _ => inferInstance

theorem keeps_declareRoutine (line : Nat) (name : String) (params : List Param) {body : List Stmt}
    (h : areMediated m.blocks body = true) :
    m.Keeps (declareRoutine line name params body) := by
  unfold declareRoutine
  refine .next fun closure => .next fun _ => .get_bind fun s hs => ?_
  refine .bind (.set { hs with routines := fun r hr => ?_ }) fun _ => inferInstance
  rcases List.mem_append.mp hr with hbefore | hlast
  · exact hs.routines r hbefore
  · obtain rfl := List.mem_singleton.mp hlast
    exact h

instance keeps_setRecordEntry (record : Value) (name : String) (v : Value) :
    m.Keeps (setRecordEntry record name v) := by
  unfold setRecordEntry
  split
  · exact .update fun s hs => { hs with }
  · infer_instance

/-! ### Calls -/

/-- What a call returns is text that was captured, unless it runs no part of a template. -/
def Yielded (m : Mediation) (v : Value) : Prop :=
  Captured m v ∨ Native m.env v

section Calls

variable {deeper : Deeper} [hdeeper : deeper.Mediates m]

instance keeps_callNamespace (env : Environment) (args : CallArgs) :
    m.Keeps (callNamespace env args) := by
  unfold callNamespace
  refine .next fun given => .next fun base => .get_bind fun s hs => ?_
  exact .bind (.set { hs with }) fun _ => inferInstance

instance keeps_callGlobal (env : Environment) (f : GlobalFunction) (args : CallArgs) :
    m.Keeps (callGlobal env f args) := by
  unfold callGlobal
  cases f <;> infer_instance

theorem returns_callValue (f : Value) (args : CallArgs) :
    m.Returns (Yielded m) (callValue m.env deeper f args) := by
  unfold callValue
  split
  · exact (hdeeper.returns _ _).mono fun _ => .inl
  · exact (Leads.mayReturn inferInstance).mono fun _ hv => .inr (.function hv)
  · exact .fail _
  · exact .fail _

theorem returns_callChanged (id : Nat) (l : LoopState) (args : List Value) :
    m.Returns (Yielded m) (callChanged id l args) := by
  unfold callChanged
  exact .bind_keeps (.update fun s hs => mediated_modify_loops hs id fun _ => rfl) fun _ =>
    .pure (.inr (.changed _))

theorem returns_callMethod (v : Value) (name : String) (args : CallArgs) :
    m.Returns (Yielded m) (callMethod m.env deeper v name args) := by
  unfold callMethod
  dsimp only
  split
  · refine .bind_keeps inferInstance fun loop? => ?_
    split
    · exact returns_callChanged _ _ _
    · exact .pure (.inr (.cycle _ _))
    · refine .bind_keeps inferInstance fun f? => ?_
      split
      · exact returns_callValue _ _
      · exact .fail _
  · refine .bind_keeps inferInstance fun f? => ?_
    split
    · exact returns_callValue _ _
    · exact .fail _

theorem keeps_runLayer (name : String) {layer : String × Block}
    (h : areMediated m.blocks layer.2.body = true) :
    m.Keeps (runLayer deeper name layer) := by
  have hbody : m.Keeps (deeper (.unit layer.1 layer.2.body)) := hdeeper.keeps h
  unfold runLayer
  dsimp only
  split
  · refine .bind (.update fun s hs => { hs with }) fun _ => inferInstance
  · infer_instance

instance keeps_runBlock (name : String) : m.Keeps (runBlock deeper name) := by
  unfold runBlock
  refine .get_bind fun s hs => ?_
  split
  · infer_instance
  · split
    · infer_instance
    · rename_i stack hstack _ layer hlayer
      have hlayer : m.Keeps (runLayer deeper name layer) :=
        keeps_runLayer name (hs.blocks.of_lookup hstack hlayer)
      refine .bind (.update fun s hs => { hs with }) fun _ => .next fun _ => ?_
      exact .update fun s hs => { hs with }

/-- What `super()` returns is what the block wrote. -/
theorem returns_callSuper : m.Returns (Captured m) (callSuper deeper) := by
  unfold callSuper
  refine Leads.get.bind fun s hs => ?_
  split
  · exact .fail _
  · split
    · exact .fail _
    · split
      · exact .fail _
      · rename_i _ name _ _ stack hstack _ layer hlayer
        have hlayer : m.Keeps (runLayer deeper name layer) :=
          keeps_runLayer name (hs.blocks.of_lookup hstack hlayer)
        have hdepth (depth : Nat) : m.Keeps (modify fun s : Store =>
            { s with blocks := setDepth name depth s.blocks }) :=
          .update fun s hs => { hs with blocks := hs.blocks.setDepth name depth }
        refine .bind_keeps inferInstance fun _ => .bind_keeps inferInstance fun _ => ?_
        exact .bind_keeps inferInstance fun _ => .bind_keeps inferInstance fun _ => returns_endCapture

theorem returns_callLoop {l : LoopState}
    (hl : ∀ body, l.again = some body → areMediated m.blocks body.body = true) (args : CallArgs) :
    m.Returns (Captured m) (callLoop m.env deeper l args) := by
  unfold callLoop
  split
  · exact .fail _
  · rename_i v body _ hbody
    have hagain : m.Keeps (deeper (.again body v)) := hdeeper.keeps (hl body hbody)
    refine .bind_keeps inferInstance fun _ => .bind_keeps inferInstance fun _ => ?_
    exact .bind_keeps hagain fun _ => returns_endCapture
  · exact .fail _

/-- The loop that a mediated state is in has a mediated body. -/
theorem returns_currentLoop? :
    m.Returns
      (fun l? => ∀ l, l? = some l →
        ∀ body, l.again = some body → areMediated m.blocks body.body = true)
      currentLoop? := by
  unfold currentLoop?
  refine Leads.get.bind fun s hs => ?_
  split
  · exact .pure fun l hl => hs.loops l (List.mem_of_getElem? hl)
  · exact .pure fun l hl => by cases hl

theorem returns_callNamed (name : String) (args : CallArgs) :
    m.Returns (Yielded m) (callNamed m.env deeper name args) := by
  unfold callNamed
  dsimp only
  split
  · split
    · exact returns_callSuper.mono fun _ => .inl
    · exact .fail _
  · refine returns_currentLoop?.bind fun l? hl? => ?_
    split
    · exact (returns_callLoop (hl? _ rfl) args).mono fun _ => .inl
    · refine .bind_keeps inferInstance fun f? => ?_
      split
      · exact returns_callValue _ _
      · exact .fail _
  · refine .bind_keeps inferInstance fun f? => ?_
    split
    · exact returns_callValue _ _
    · exact .fail _

theorem returns_callBlock (name : String) : m.Returns (Captured m) (callBlock deeper name) := by
  unfold callBlock
  refine .bind_keeps inferInstance fun _ => .bind_keeps inferInstance fun runs => ?_
  dsimp only
  split
  · exact .bind_keeps inferInstance fun _ => returns_endCapture
  · exact returns_endCapture

theorem returns_callAny (callee : Callee) (args : CallArgs) :
    m.Returns (Yielded m) (callAny m.env deeper callee args) := by
  unfold callAny
  cases callee with
  | named name => exact returns_callNamed name args
  | block name => exact (returns_callBlock name).mono fun _ => .inl
  | method v name => exact returns_callMethod v name args
  | value v => exact returns_callValue v args

instance keeps_callAny (callee : Callee) (args : CallArgs) :
    m.Keeps (callAny m.env deeper callee args) :=
  (returns_callAny callee args).keeps

end Calls

end Eval

end QueryTemplate.Template
