import QueryTemplate.Proofs.Evaluating

/-!
The render as a variable. The emit filter is given the render by the name that every expression tag
has at its end, and a registered filter looks for it under this name where it is applied. A tidy
template does not use the name otherwise. Whatever frames such a template builds up, the outermost
one is that of the render, and nothing in front of it has the name with another value, so the render
is in sight everywhere.
-/

namespace QueryTemplate.Template

/-! ### Tidy templates -/

/-- The emit filter is given the render, by its name. -/
def givesRender (name : String) (args : List Arg) : Bool :=
  name != emitName ||
    match args with
    | (.positional, .var _ scope) :: _ => scope == scopeName
    | _ => false

def Expr.isTidy (e : Expr) : Bool :=
  e.eachFilter givesRender

def isTidyOption (e? : Option Expr) : Bool :=
  e?.all Expr.isTidy

mutual

/-- Whether the target does not assign the variable of the render. -/
def Target.isTidy : Target → Bool
  | .name name => name != scopeName
  | .attr record _ => record.isTidy
  | .tuple _ targets => areTidyTargets targets

def areTidyTargets : List Target → Bool
  | [] => true
  | t :: rest => t.isTidy && areTidyTargets rest

end

def Param.isTidy (p : Param) : Bool :=
  p.name != scopeName && isTidyOption p.fallback

mutual

/-- Whether a statement gives the render to the emit filter wherever it applies that, and does not
assign its variable. -/
def Stmt.isTidy : Stmt → Bool
  | .text _ _ => true
  | .emit _ e => e.isTidy
  | .loop _ target items condition _ body otherwise =>
    target.isTidy && items.isTidy && isTidyOption condition && areTidy body && areTidy otherwise
  | .branch _ test yes no => test.isTidy && areTidy yes && areTidy no
  | .within _ assignments body =>
    (assignments.all fun (target, e) => target.isTidy && e.isTidy) && areTidy body
  | .assign _ target e => target.isTidy && e.isTidy
  | .assignBlock _ target filter body => target.isTidy && isTidyOption filter && areTidy body
  | .escaping _ enabled body => enabled.isTidy && areTidy body
  | .filtered _ filter body => filter.isTidy && areTidy body
  | .block _ _ _ body => areTidy body
  | .inherit _ parent => parent.isTidy
  | .inclusion _ template _ => template.isTidy
  | .importAs _ template target => template.isTidy && target.isTidy
  | .importNames _ template names => template.isTidy && names.all fun (_, name) => name != scopeName
  | .declare _ name params body => name != scopeName && params.all Param.isTidy && areTidy body
  | .callBlock _ call params body => call.isTidy && params.all Param.isTidy && areTidy body
  | .perform _ call => call.isTidy

def areTidy : List Stmt → Bool
  | [] => true
  | s :: rest => s.isTidy && areTidy rest

end

def Source.isTidy (src : Source) : Bool :=
  areTidy src.body && src.blocks.all fun (_, block) => areTidy block.body

def LoopBody.isTidy (loop : LoopBody) : Bool :=
  loop.target.isTidy && areTidy loop.body

def Routine.isTidy (r : Routine) : Bool :=
  r.params.all Param.isTidy && areTidy r.body

def Task.isTidy : Task → Bool
  | .unit _ body => areTidy body
  | .again loop _ => loop.isTidy
  | .invoke _ _ => true

theorem Source.areTidy_body {src : Source} (h : src.isTidy = true) : areTidy src.body = true := by
  rw [Source.isTidy, Bool.and_eq_true] at h
  exact h.1

theorem Source.areTidy_block {src : Source} (h : src.isTidy = true) {entry : String × Block}
    (hentry : entry ∈ src.blocks) : areTidy entry.2.body = true := by
  rw [Source.isTidy, Bool.and_eq_true, List.all_eq_true] at h
  exact h.2 entry hentry

/-! ### States with the render in sight -/

/-- The frame of the render is the last one. -/
def Rooted : List Frame → Prop
  | [] => False
  | [f] => f.base = .root
  | _ :: f :: rest => Rooted (f :: rest)

/-- No value but the render has its name. -/
def Unshadowed (values : List (String × Value)) : Prop :=
  ∀ v, values.lookup scopeName = some v → v = .object .root

/-- There are `n` frames in front of the frame of the render, no variable has the name of the render
with another value, and what may be run later is tidy. -/
structure Store.InSight (n : Nat) (s : Store) : Prop where
  depth : s.frames.length = n + 1
  root : Rooted s.frames
  locals : ∀ f ∈ s.frames, Unshadowed f.locals
  closures : ∀ c ∈ s.closures, Unshadowed c.values
  blocks : EachLayer (areTidy · = true) s.blocks
  parent : ∀ src, s.parent = some src → src.isTidy = true
  routines : ∀ r ∈ s.routines, r.isTidy = true
  loops : ∀ l ∈ s.loops, ∀ body, l.again = some body → body.isTidy = true

/-- Tidy tasks leave the render in sight, however many frames there are in front of it. -/
class Deeper.KeepsSight (E : Bounds) (deeper : Deeper) : Prop where
  keeps : ∀ (n : Nat) {task : Task}, task.isTidy = true → Eval.Keeps E (Store.InSight n) (deeper task)

theorem Rooted.cons {frames : List Frame} (h : Rooted frames) (f : Frame) :
    Rooted (f :: frames) := by
  cases frames with
  | nil => exact h.elim
  | cons g rest => exact h

/-- A frame with the same variables behind it may stand for another. -/
theorem Rooted.replace {f g : Frame} {rest : List Frame} (h : Rooted (f :: rest))
    (hbase : g.base = f.base) : Rooted (g :: rest) := by
  cases rest with
  | nil => exact hbase.trans h
  | cons g' rest => exact h

theorem Rooted.tail {f : Frame} {rest : List Frame} (h : Rooted (f :: rest)) (hrest : rest ≠ []) :
    Rooted rest := by
  cases rest with
  | nil => exact absurd rfl hrest
  | cons g rest => exact h

theorem Unshadowed.nil : Unshadowed [] := by
  intro v h
  cases h

theorem lookup_filter_of_ne {name other : String} (hne : name ≠ other)
    (values : List (String × Value)) :
    (values.filter fun (n, _) => n != other).lookup name = values.lookup name := by
  induction values with
  | nil => rfl
  | cons entry rest ih =>
      obtain ⟨n, v⟩ := entry
      by_cases hn : n = other
      · subst hn
        rw [List.filter_cons_of_neg (by simp), ih, List.lookup_cons, beq_false_of_ne hne]
      · rw [List.filter_cons_of_pos (by simpa using hn), List.lookup_cons, List.lookup_cons, ih]

/-- Another variable is assigned, or the render itself. -/
theorem Unshadowed.put {values : List (String × Value)} (h : Unshadowed values) {name : String}
    {v : Value} (hv : name = scopeName → v = .object .root) :
    Unshadowed ((name, v) :: values.filter fun (n, _) => n != name) := by
  intro w hw
  by_cases hname : name = scopeName
  · subst hname
    rw [List.lookup_cons_self] at hw
    rw [← Option.some.inj hw, hv rfl]
  · rw [List.lookup_cons, beq_false_of_ne (Ne.symm hname),
      lookup_filter_of_ne (Ne.symm hname)] at hw
    exact h w hw

namespace Eval

variable {n : Nat}

/-! ### Finding the render -/

/-- What `loop` is in a frame does not matter for other variables. -/
theorem loadFrom_behind {name : String} (hname : name ≠ "loop") {f : Frame}
    (hlocal : f.locals.lookup name = none) {s : Store} {found : Option Value}
    (hbase : loadBase name f.base s = .done (.ok (found, s))) (rest : List Frame) :
    loadFrom name (f :: rest) s =
      found.elim (loadFrom name rest s) fun v => .done (.ok (some v, s)) := by
  have hthen {next : Option Value → Eval (Option Value)} (hnone : next none = loadFrom name rest)
      (hsome : ∀ v, next (some v) = pure (some v)) :
      (loadBase name f.base >>= next) s =
        found.elim (loadFrom name rest s) fun v => .done (.ok (some v, s)) := by
    change Program.bind (loadBase name f.base s : Program (Except Stop _)) _ = _
    rw [hbase]
    cases found with
    | none => exact congrFun hnone s
    | some v => exact congrFun (hsome v) s
  rw [loadFrom, hlocal]
  rcases f.loop with _ | ⟨id, _ | _⟩
  · exact hthen rfl fun _ => rfl
  · exact hthen rfl fun _ => rfl
  · dsimp only
    rw [if_neg hname]
    exact hthen rfl fun _ => rfl

/-- Whatever frames are looked through, the render is found. -/
theorem loadFrom_inSight {s : Store} (hclosures : ∀ c ∈ s.closures, Unshadowed c.values)
    {frames : List Frame} (hroot : Rooted frames) (hlocals : ∀ f ∈ frames, Unshadowed f.locals) :
    loadFrom scopeName frames s = .done (.ok (some (.object .root), s)) := by
  -- A frame could hide the render in two places: in its locals, and in the closure behind them.
  induction frames with
  | nil => exact hroot.elim
  | cons f rest ih =>
      obtain ⟨hf, hrest⟩ := List.forall_mem_cons.mp hlocals
      have hbehind (hbase : f.base ≠ .root) :
          loadFrom scopeName rest s = .done (.ok (some (.object .root), s)) := by
        cases rest with
        | nil => exact absurd hroot hbase
        | cons g rest => exact ih hroot hrest
      cases hlocal : f.locals.lookup scopeName with
      | some v =>
          obtain rfl := hf v hlocal
          rw [loadFrom, hlocal]
          rfl
      | none =>
          cases hbase : f.base with
          | root => exact loadFrom_behind (by decide) hlocal (by rw [hbase]; rfl) rest
          | nothing =>
              have hnone : loadBase scopeName f.base s = .done (.ok (none, s)) := by
                rw [hbase]
                rfl
              rw [loadFrom_behind (by decide) hlocal hnone rest]
              exact hbehind (by simp [hbase])
          | closure id =>
              rw [loadFrom_behind (by decide) hlocal (by rw [hbase]; rfl) rest]
              cases hvalue : (s.closures[id]?).bind fun c => c.values.lookup scopeName with
              | none => exact hbehind (by simp [hbase])
              | some v =>
                  obtain ⟨c, hc, hv⟩ := Option.bind_eq_some_iff.mp hvalue
                  obtain rfl := hclosures c (List.mem_of_getElem? hc) v hv
                  rfl

theorem load_inSight {s : Store} (hs : s.InSight n) :
    load scopeName s = .done (.ok (some (.object .root), s)) := by
  have hfrom := loadFrom_inSight hs.closures hs.root hs.locals
  change Program.bind (loadFrom scopeName s.frames s : Program (Except Stop _)) _ = _
  rw [hfrom]
  rfl

/-- A registered filter is called, wherever it is applied. -/
theorem callRegistered_inSight {s : Store} (hs : s.InSight n) (env : Environment) (name : String)
    (v : Value) (args : CallArgs) :
    callRegistered env name v args s =
      (do call name (← snapshot env v) (← args.toList.mapM (snapshot env)) : Eval Value) s := by
  change Program.bind (load scopeName s : Program (Except Stop _)) _ = _
  rw [load_inSight hs]
  rfl

variable {E : Bounds}

theorem returns_load :
    Returns E (Store.InSight n) (fun v? => v? = some (.object .root)) (load scopeName) := by
  intro s hs
  rw [load_inSight hs]
  exact ⟨rfl, hs⟩

instance keeps_callRegistered_inSight (env : Environment) (name : String) (v : Value)
    (args : CallArgs) : Keeps E (Store.InSight n) (callRegistered env name v args) := by
  have hcall : Keeps E (Store.InSight n)
      (do call name (← snapshot env v) (← args.toList.mapM (snapshot env)) : Eval Value) :=
    inferInstance
  refine ⟨fun s hs => ?_⟩
  rw [callRegistered_inSight hs]
  exact hcall.returns s hs

/-! ### Output -/

instance keeps_write_inSight (piece : Piece) : Keeps E (Store.InSight n) (write piece) := by
  refine .update fun s hs => ?_
  split
  · exact { hs with }
  · exact hs

instance keeps_beginCapture_inSight : Keeps E (Store.InSight n) beginCapture :=
  .update fun _ hs => { hs with }

instance keeps_beginDiscard_inSight : Keeps E (Store.InSight n) beginDiscard :=
  .update fun _ hs => { hs with }

instance keeps_endCapture_inSight : Keeps E (Store.InSight n) endCapture := by
  unfold endCapture
  refine .get_bind fun s hs => ?_
  split
  · exact .bind (.set { hs with }) fun _ => inferInstance
  · exact .bind (.set { hs with }) fun _ => inferInstance
  · infer_instance

/-! ### Frames -/

/-- A frame in front of the others. -/
theorem leads_pushFrame {f : Frame} (hf : Unshadowed f.locals) :
    Leads E (Store.InSight n) (Store.InSight (n + 1)) (fun _ => True) (pushFrame f) := by
  unfold pushFrame
  refine .next fun _ => .update fun s hs => ?_
  exact
    { hs with
      depth := congrArg (· + 1) hs.depth
      root := hs.root.cons f
      locals := List.forall_mem_cons.mpr ⟨hf, hs.locals⟩ }

theorem leads_popFrame :
    Leads E (Store.InSight (n + 1)) (Store.InSight n) (fun _ => True) popFrame := by
  refine .update fun s hs => ?_
  cases hframes : s.frames with
  | nil =>
      have hdepth := hs.depth
      rw [hframes] at hdepth
      cases hdepth
  | cons f rest =>
      have hdepth := hs.depth
      have hroot := hs.root
      have hlocals := hs.locals
      rw [hframes] at hdepth hroot hlocals
      have hrest : rest.length = n + 1 := Nat.succ.inj hdepth
      exact
        { hs with
          depth := hrest
          root := hroot.tail (List.ne_nil_of_length_pos (by omega))
          locals := (List.forall_mem_cons.mp hlocals).2 }

/-- The variables of the innermost frame may be replaced, and so may the closures. -/
theorem inSight_replace {s : Store} (hs : s.InSight n) {f : Frame} {rest : List Frame}
    (hframes : s.frames = f :: rest) {locals : List (String × Value)} (hf : Unshadowed locals)
    {sources : List (String × Place)} {closure : Option Nat} {closures : List Closure}
    (hclosures : ∀ c ∈ closures, Unshadowed c.values) :
    { s with frames := { f with locals, sources, closure } :: rest, closures }.InSight n := by
  have hdepth := hs.depth
  have hroot := hs.root
  have hlocals := hs.locals
  rw [hframes] at hdepth hroot hlocals
  exact
    { hs with
      depth := hdepth
      root := hroot.replace rfl
      locals := List.forall_mem_cons.mpr ⟨hf, (List.forall_mem_cons.mp hlocals).2⟩
      closures := hclosures }

/-- The variables of the innermost frame. -/
theorem inSight_locals {s : Store} (hs : s.InSight n) {f : Frame} {rest : List Frame}
    (hframes : s.frames = f :: rest) : Unshadowed f.locals :=
  hs.locals f (by rw [hframes]; exact List.mem_cons_self)

instance keeps_clearFrame_inSight : Keeps E (Store.InSight n) clearFrame := by
  refine .update fun s hs => ?_
  split
  · exact hs
  · rename_i hframes
    exact inSight_replace hs hframes .nil hs.closures

instance keeps_deepen_inSight (weight : Nat) : Keeps E (Store.InSight n) (deepen weight) := by
  unfold deepen
  exact .bind (.update fun s hs => { hs with }) fun _ => inferInstance

instance keeps_noteSource_inSight (name : String) (place : Place) :
    Keeps E (Store.InSight n) (noteSource name place) := by
  refine .update fun s hs => ?_
  split
  · exact hs
  · rename_i hframes
    exact inSight_replace hs hframes (inSight_locals hs hframes) hs.closures

/-- The closures after another variable was taken along, or the render itself. -/
theorem unshadowed_modify {closures : List Closure} (h : ∀ c ∈ closures, Unshadowed c.values)
    (id : Nat) {name : String} {v : Value} (hv : name = scopeName → v = .object .root) :
    ∀ c ∈ closures.modify id (setClosureValue name v), Unshadowed c.values := by
  intro c hc
  obtain ⟨i, hi⟩ := List.mem_iff_getElem?.mp hc
  rw [List.getElem?_modify] at hi
  obtain ⟨before, hbefore, rfl⟩ := Option.map_eq_some_iff.mp hi
  have hbefore := h before (List.mem_of_getElem? hbefore)
  split
  · exact hbefore.put hv
  · exact hbefore

theorem keeps_store_inSight {name : String} (hname : name ≠ scopeName) (v : Value) :
    Keeps E (Store.InSight n) (store name v) := by
  refine .update fun s hs => ?_
  split
  · exact hs
  · rename_i f rest hframes
    have hput : name = scopeName → v = .object .root := fun h => absurd h hname
    refine inSight_replace hs hframes ((inSight_locals hs hframes).put hput) ?_
    split
    · exact unshadowed_modify hs.closures _ hput
    · exact hs.closures

theorem keeps_storeAll_inSight {values : List (String × Value)}
    (h : ∀ entry ∈ values, entry.1 ≠ scopeName) :
    Keeps E (Store.InSight n) (storeAll values) := by
  induction values with
  | nil => exact .pure _
  | cons entry rest ih =>
      obtain ⟨hentry, hrest⟩ := List.forall_mem_cons.mp h
      have hstore := keeps_store_inSight (E := E) (n := n) hentry entry.2
      have hrest := ih hrest
      unfold storeAll
      infer_instance

/-! ### Loops and macros -/

instance keeps_frameClosure_inSight : Keeps E (Store.InSight n) frameClosure := by
  unfold frameClosure
  refine .get_bind fun s hs => ?_
  split
  · infer_instance
  · rename_i f rest hframes
    split
    · infer_instance
    · have hclosures : ∀ c ∈ s.closures ++ [({} : Closure)], Unshadowed c.values :=
        List.forall_mem_append.mpr ⟨hs.closures, List.forall_mem_singleton.mpr .nil⟩
      refine .bind (.set ?_) fun _ => inferInstance
      exact inSight_replace hs hframes (inSight_locals hs hframes) hclosures

instance keeps_enclose_inSight (id : Nat) (name : String) :
    Keeps E (Store.InSight n) (enclose id name) := by
  have htake {v : Value} (hv : name = scopeName → v = .object .root) :
      Keeps E (Store.InSight n) (modify fun s : Store =>
        { s with closures := s.closures.modify id (setClosureValue name v) }) :=
    .update fun s hs => { hs with closures := unshadowed_modify hs.closures id hv }
  have hload : Keeps E (Store.InSight n) (do
      let v := (← load name).getD .undefined
      modify fun s : Store =>
        { s with closures := s.closures.modify id (setClosureValue name v) }) := by
    by_cases hname : name = scopeName
    · subst hname
      refine ⟨returns_load.bind fun v? hv? => (htake fun _ => ?_).returns⟩
      rw [hv?]
      rfl
    · have hother := fun v => htake (v := v) fun h => absurd h hname
      infer_instance
  unfold enclose
  infer_instance

theorem keeps_declareRoutine_inSight (line : Nat) (name : String) {params : List Param}
    (hparams : params.all Param.isTidy = true) {body : List Stmt} (hbody : areTidy body = true) :
    Keeps E (Store.InSight n) (declareRoutine line name params body) := by
  unfold declareRoutine
  refine .next fun closure => .next fun _ => .get_bind fun s hs => ?_
  refine .bind (.set { hs with routines := List.forall_mem_append.mpr ⟨hs.routines, ?_⟩ }) fun _ =>
    inferInstance
  refine List.forall_mem_singleton.mpr ?_
  rw [Routine.isTidy, hparams, hbody, Bool.and_self]

theorem inSight_modify_loops {s : Store} (hs : s.InSight n) (id : Nat) {g : LoopState → LoopState}
    (hg : ∀ l, (g l).again = l.again) : { s with loops := s.loops.modify id g }.InSight n :=
  { hs with loops := again_of_mem_modify hs.loops id hg }

instance keeps_setIndex_inSight (id index : Nat) :
    Keeps E (Store.InSight n) (setIndex id index) :=
  .update fun _ hs => inSight_modify_loops hs id fun _ => rfl

instance keeps_runItems_inSight (id : Nat) {step : Value → Eval Unit}
    [∀ v, Keeps E (Store.InSight n) (step v)] (index : Nat) (items : List Value) :
    Keeps E (Store.InSight n) (runItems id step index items) := by
  induction items generalizing index with
  | nil =>
      unfold runItems
      infer_instance
  | cons v rest ih =>
      unfold runItems
      infer_instance

instance keeps_keepItems_inSight (id : Nat) {test : Value → Eval Bool}
    [∀ v, Keeps E (Store.InSight n) (test v)] (index : Nat) (items : List Value) :
    Keeps E (Store.InSight n) (keepItems id test index items) := by
  induction items generalizing index with
  | nil =>
      unfold keepItems
      infer_instance
  | cons v rest ih =>
      unfold keepItems
      infer_instance

/-- A loop has a frame of its own. -/
theorem leads_enterLoop (env : Environment) (isVisible : Bool) {again : Option LoopBody}
    (hagain : ∀ body, again = some body → body.isTidy = true) (v : Value) :
    Leads E (Store.InSight n) (Store.InSight (n + 1)) (fun _ => True)
      (enterLoop env isVisible again v) := by
  have hnew {s : Store} (hs : s.InSight n) {state : LoopState} (hstate : state.again = again) :
      { s with loops := s.loops ++ [state] }.InSight n := by
    refine { hs with loops := List.forall_mem_append.mpr ⟨hs.loops, ?_⟩ }
    exact List.forall_mem_singleton.mpr fun body hbody => hagain body (hstate ▸ hbody)
  unfold enterLoop
  refine .next fun items => .next fun loop? => ?_
  dsimp only
  split
  all_goals
    refine Leads.get.bind fun s hs => ?_
    refine (Leads.set (hnew hs rfl)).bind fun _ _ => ?_
    exact (leads_pushFrame .nil).then_keeps fun _ => inferInstance

instance keeps_setRecordEntry_inSight (record : Value) (name : String) (v : Value) :
    Keeps E (Store.InSight n) (setRecordEntry record name v) := by
  unfold setRecordEntry
  split
  · exact .update fun s hs => { hs with }
  · infer_instance

/-! ### Calls -/

section Calls

instance keeps_callNamespace_inSight (env : Environment) (args : CallArgs) :
    Keeps E (Store.InSight n) (callNamespace env args) := by
  unfold callNamespace
  refine .next fun given => .next fun base => .get_bind fun s hs => ?_
  exact .bind (.set { hs with }) fun _ => inferInstance

instance keeps_callGlobal_inSight (env : Environment) (f : GlobalFunction) (args : CallArgs) :
    Keeps E (Store.InSight n) (callGlobal env f args) := by
  unfold callGlobal
  cases f <;> infer_instance

instance keeps_callChanged_inSight (id : Nat) (l : LoopState) (args : List Value) :
    Keeps E (Store.InSight n) (callChanged id l args) := by
  unfold callChanged
  exact .bind (.update fun s hs => inSight_modify_loops hs id fun _ => rfl) fun _ => inferInstance

variable {deeper : Deeper} [hdeeper : deeper.KeepsSight E]

instance keeps_callValue_inSight (env : Environment) (f : Value) (args : CallArgs) :
    Keeps E (Store.InSight n) (callValue env deeper f args) := by
  unfold callValue
  split
  · exact hdeeper.keeps n rfl
  all_goals infer_instance

instance keeps_callMethod_inSight (env : Environment) (v : Value) (name : String)
    (args : CallArgs) : Keeps E (Store.InSight n) (callMethod env deeper v name args) := by
  have hordinary : Keeps E (Store.InSight n) (do
      match ← attribute? v name with
      | some f => callValue env deeper f args
      | none => fail (unknownMethod v name)) := by
    refine .next fun f? => ?_
    cases f? <;> infer_instance
  unfold callMethod
  dsimp only
  split
  · refine .next fun loop? => ?_
    split
    · infer_instance
    · infer_instance
    · exact hordinary
  · exact hordinary

theorem keeps_runLayer_inSight (name : String) {layer : String × Block}
    (h : areTidy layer.2.body = true) : Keeps E (Store.InSight n) (runLayer deeper name layer) := by
  have hbody : Keeps E (Store.InSight (n + 1)) (deeper (.unit layer.1 layer.2.body)) :=
    hdeeper.keeps _ h
  have hframe : Keeps E (Store.InSight n) (do
      pushFrame {}
      let _ ← deeper (.unit layer.1 layer.2.body)
      popFrame) :=
    ⟨(leads_pushFrame .nil).bind fun _ _ => .next fun _ => leads_popFrame⟩
  unfold runLayer
  dsimp only
  split
  · exact .bind (.update fun s hs => { hs with }) fun _ => inferInstance
  · exact hframe

instance keeps_runBlock_inSight (name : String) :
    Keeps E (Store.InSight n) (runBlock deeper name) := by
  unfold runBlock
  refine .get_bind fun s hs => ?_
  split
  · infer_instance
  · split
    · infer_instance
    · rename_i stack hstack _ layer hlayer
      have hlayer : Keeps E (Store.InSight n) (runLayer deeper name layer) :=
        keeps_runLayer_inSight name (hs.blocks.of_lookup hstack hlayer)
      refine .bind (.update fun s hs => { hs with }) fun _ => .next fun _ => ?_
      exact .update fun s hs => { hs with }

instance keeps_callSuper_inSight : Keeps E (Store.InSight n) (callSuper deeper) := by
  unfold callSuper
  refine .get_bind fun s hs => ?_
  split
  · infer_instance
  · split
    · infer_instance
    · split
      · infer_instance
      · rename_i _ name _ _ stack hstack _ layer hlayer
        have hlayer : Keeps E (Store.InSight n) (runLayer deeper name layer) :=
          keeps_runLayer_inSight name (hs.blocks.of_lookup hstack hlayer)
        have hdepth (depth : Nat) : Keeps E (Store.InSight n) (modify fun s : Store =>
            { s with blocks := setDepth name depth s.blocks }) :=
          .update fun s hs => { hs with blocks := hs.blocks.setDepth name depth }
        infer_instance

theorem keeps_callLoop_inSight (env : Environment) {l : LoopState}
    (hl : ∀ body, l.again = some body → body.isTidy = true) (args : CallArgs) :
    Keeps E (Store.InSight n) (callLoop env deeper l args) := by
  unfold callLoop
  split
  · infer_instance
  · rename_i v body _ hbody
    have hagain : Keeps E (Store.InSight n) (deeper (.again body v)) :=
      hdeeper.keeps n (hl body hbody)
    infer_instance
  · infer_instance

/-- The loop that a state is in has a tidy body. -/
theorem returns_currentLoop?_inSight :
    Returns E (Store.InSight n)
      (fun l? => ∀ l, l? = some l → ∀ body, l.again = some body → body.isTidy = true)
      currentLoop? := by
  unfold currentLoop?
  refine Leads.get.bind fun s hs => ?_
  split
  · exact .pure fun l hl => hs.loops l (List.mem_of_getElem? hl)
  · exact .pure fun l hl => by cases hl

instance keeps_callNamed_inSight (env : Environment) (name : String) (args : CallArgs) :
    Keeps E (Store.InSight n) (callNamed env deeper name args) := by
  have hordinary : Keeps E (Store.InSight n) (do
      match ← load name with
      | some f => callValue env deeper f args
      | none => fail (.of .unknownFunction (name ++ " is unknown"))) := by
    refine .next fun f? => ?_
    cases f? <;> infer_instance
  unfold callNamed
  dsimp only
  split
  · split <;> infer_instance
  · refine ⟨returns_currentLoop?_inSight.bind fun l? hl? => ?_⟩
    split
    · exact (keeps_callLoop_inSight env (hl? _ rfl) args).returns
    · exact hordinary.returns
  · exact hordinary

instance keeps_callBlock_inSight (name : String) :
    Keeps E (Store.InSight n) (callBlock deeper name) := by
  unfold callBlock
  infer_instance

instance keeps_callAny_inSight (env : Environment) (callee : Callee) (args : CallArgs) :
    Keeps E (Store.InSight n) (callAny env deeper callee args) := by
  unfold callAny
  cases callee <;> infer_instance

end Calls

end Eval

end QueryTemplate.Template
