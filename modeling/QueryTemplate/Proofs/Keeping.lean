import QueryTemplate.Template.Eval

/-!
What an evaluation keeps, whatever its surroundings answer. `Keeps E I x` says that the evaluation
`x`, begun in a state with the property `I`, leaves a state with it; `Returns E I Q x` says besides
that its result has the property `Q`, and `Leads E I J Q x` that the state left has the property `J`.
In `E` stands how emissions may be answered and how an evaluation may end early; all other answers
are left open. `Keeps` is a class: it is found for what is put together from parts that have it, so
an evaluation only has to be taken apart where it branches.
-/

namespace QueryTemplate.Template

variable {α β : Type}

/-- The texts that an emission may be answered with. -/
abbrev Answers := Value → Option String → String → Prop

/-- However the surroundings answer, the result has a property. -/
def Program.Ends (E : Answers) (Q : α → Prop) : Program α → Prop
  | done a => Q a
  | lookup _ next => ∀ v, (next v).Ends E Q
  | call _ _ _ next => ∀ v, (next v).Ends E Q
  | emit v hint next => ∀ text, E v hint text → (next text).Ends E Q
  | read _ _ next => ∀ v, (next v).Ends E Q

theorem Program.Ends.mono {E : Answers} {P Q : α → Prop} {x : Program α} (hx : x.Ends E P)
    (h : ∀ a, P a → Q a) : x.Ends E Q := by
  induction x with
  | done a => exact h a hx
  | lookup name next ih => exact fun v => ih v (hx v)
  | call filter input args next ih => exact fun v => ih v (hx v)
  | emit v hint next ih => exact fun text htext => ih text (hx text htext)
  | read object attr next ih => exact fun v => ih v (hx v)

theorem Program.Ends.bind {E : Answers} {P : α → Prop} {Q : β → Prop} {x : Program α}
    {f : α → Program β} (hx : x.Ends E P) (hf : ∀ a, P a → (f a).Ends E Q) :
    (x.bind f).Ends E Q := by
  induction x with
  | done a => exact hf a hx
  | lookup name next ih => exact fun v => ih v (hx v)
  | call filter input args next ih => exact fun v => ih v (hx v)
  | emit v hint next ih => exact fun text htext => ih text (hx text htext)
  | read object attr next ih => exact fun v => ih v (hx v)

/-- The surroundings may answer in such a way that the computation ends in this result. -/
def Program.MayEnd (a : α) : Program α → Prop
  | done b => b = a
  | lookup _ next => ∃ v, (next v).MayEnd a
  | call _ _ _ next => ∃ v, (next v).MayEnd a
  | emit _ _ next => ∃ text, (next text).MayEnd a
  | read _ _ next => ∃ v, (next v).MayEnd a

/-- However the surroundings answer, the computation ends in a result that it may end in. -/
theorem Program.Ends.mayEnd {E : Answers} {Q : α → Prop} {x : Program α} (hx : x.Ends E Q) :
    x.Ends E fun a => Q a ∧ x.MayEnd a := by
  induction x with
  | done a => exact ⟨hx, rfl⟩
  | lookup name next ih => exact fun v => (ih v (hx v)).mono fun a ha => ⟨ha.1, v, ha.2⟩
  | call filter input args next ih =>
      exact fun v => (ih v (hx v)).mono fun a ha => ⟨ha.1, v, ha.2⟩
  | emit v hint next ih =>
      exact fun text htext => (ih text (hx text htext)).mono fun a ha => ⟨ha.1, text, ha.2⟩
  | read object attr next ih => exact fun v => (ih v (hx v)).mono fun a ha => ⟨ha.1, v, ha.2⟩

/-- How emissions may be answered, and how an evaluation may end early. An error is always allowed, and
what is allowed stays so when its error is replaced. -/
structure Bounds where
  answers : Answers
  stops : Stop → Prop
  error : ∀ e, stops (.error e)
  mapError : ∀ f stop, stops stop → stops (stop.mapError f)
  inMap : ∀ stop, stops stop → stops stop.inMap

namespace Bounds

/-- Nothing is said about how an evaluation ends early. -/
def allowing (answers : Answers) : Bounds where
  answers
  stops _ := True
  error _ := trivial
  mapError _ _ _ := trivial
  inMap _ _ := trivial

/-- An evaluation may end because a query filter runs outside a render in this way. -/
class Allows (E : Bounds) (how : Outside) : Prop where
  outside : ∀ e, E.stops (.outside how e)

instance (answers : Answers) (how : Outside) : (allowing answers).Allows how :=
  ⟨fun _ => trivial⟩

end Bounds

namespace Eval

/-- The surroundings may answer in such a way that the evaluation, begun in some state, has this
result. -/
def MayReturn (x : Eval α) (a : α) : Prop :=
  ∃ s s', Program.MayEnd (.ok (a, s')) (x s : Program (Except Stop (α × Store)))

/-- The evaluation ends as it may, and if with a result, then with one that has the property `Q`, in a
state that has the property `J`. -/
def EndsIn (E : Bounds) (J : Store → Prop) (Q : α → Prop) (r : Except Stop (α × Store)) : Prop :=
  match r with
  | .ok (a, s) => Q a ∧ J s
  | .error stop => E.stops stop

/-- Begun in a state with the property `I`, the evaluation leaves a state with the property `J`, and
its result has the property `Q`. -/
def Leads (E : Bounds) (I J : Store → Prop) (Q : α → Prop) (x : Eval α) : Prop :=
  ∀ s, I s → Program.Ends E.answers (EndsIn E J Q) (x s : Program (Except Stop (α × Store)))

/-- Begun in a state with the property `I`, the evaluation leaves a state with it, and its result
has the property `Q`. -/
abbrev Returns (E : Bounds) (I : Store → Prop) (Q : α → Prop) (x : Eval α) : Prop :=
  Leads E I I Q x

/-- Begun in a state with the property `I`, the evaluation leaves a state with it. -/
class Keeps (E : Bounds) (I : Store → Prop) (x : Eval α) : Prop where
  returns : Returns E I (fun _ => True) x

variable {E : Bounds} {I J K : Store → Prop} {P : α → Prop} {Q : β → Prop}

namespace Leads

theorem bind {x : Eval α} {f : α → Eval β} (hx : Leads E I J P x)
    (hf : ∀ a, P a → Leads E J K Q (f a)) : Leads E I K Q (x >>= f) := by
  intro s hs
  refine Program.Ends.bind (hx s hs) fun r hr => ?_
  rcases r with stop | ⟨a, s'⟩
  · exact hr
  · exact hf a hr.1 s' hr.2

/-- An evaluation whose result does not matter, followed by another. -/
theorem bind_keeps {x : Eval α} {f : α → Eval β} (hx : Keeps E I x)
    (hf : ∀ a, Leads E I J Q (f a)) : Leads E I J Q (x >>= f) :=
  bind hx.returns fun a _ => hf a

/-- The same, where it has an instance. -/
theorem next {x : Eval α} {f : α → Eval β} [hx : Keeps E I x] (hf : ∀ a, Leads E I J Q (f a)) :
    Leads E I J Q (x >>= f) :=
  bind_keeps hx hf

/-- An evaluation behind another keeps what that one leads to. -/
theorem then_keeps {x : Eval α} {f : α → Eval β} (hx : Leads E I J P x)
    (hf : ∀ a, Keeps E J (f a)) : Leads E I J (fun _ => True) (x >>= f) :=
  hx.bind fun a _ => (hf a).returns

theorem update {g : Store → Store} (h : ∀ s, I s → J (g s)) :
    Leads E I J (fun _ => True) (modify g) :=
  fun s hs => ⟨trivial, h s hs⟩

/-- How an evaluation ends early may be replaced by what other bounds allow. -/
theorem mapStop {x : Eval α} (hx : Leads E I J P x) {E' : Bounds} (hanswers : E'.answers = E.answers)
    {g : Stop → Stop} (hg : ∀ stop, E.stops stop → E'.stops (g stop)) :
    Leads E' I J P (Eval.mapStop g x) := by
  intro s hs
  rw [hanswers]
  refine Program.Ends.bind (hx s hs) fun r hr => ?_
  rcases r with stop | ⟨a, s'⟩
  · exact hg stop hr
  · exact hr

/-- The line that errors are reported on changes nothing else. -/
theorem at_ {x : Eval α} (hx : Leads E I J P x) (line : Nat) : Leads E I J P (Eval.at_ line x) :=
  fun s hs => hx.mapStop rfl (E.mapError _) s hs

theorem mono {P' : α → Prop} {x : Eval α} (hx : Leads E I J P x) (h : ∀ a, P a → P' a) :
    Leads E I J P' x := by
  refine fun s hs => (hx s hs).mono fun r hr => ?_
  rcases r with stop | ⟨a, s'⟩
  · exact hr
  · exact ⟨h a hr.1, hr.2⟩

theorem pure {a : α} (h : P a) : Returns E I P (Pure.pure a) :=
  fun _ hs => ⟨h, hs⟩

theorem stop {e : Stop} (h : E.stops e) : Returns E I P fun _ => .done (.error e) :=
  fun _ _ => h

theorem fail (e : EngineError) : Returns E I P (Eval.fail e) :=
  stop (E.error e)

/-- The state that is read has the property that all states have. -/
theorem get : Returns E I I MonadState.get :=
  fun _ hs => ⟨hs, hs⟩

theorem set {s : Store} (h : J s) : Leads E I J (fun _ => True) (MonadStateOf.set s) :=
  fun _ _ => ⟨trivial, h⟩

/-- One evaluation for each element, with results that have a property. -/
theorem mapM {f : α → Eval β} {items : List α} (hf : ∀ a ∈ items, Returns E I Q (f a)) :
    Returns E I (fun bs => ∀ b ∈ bs, Q b) (items.mapM f) := by
  induction items with
  | nil => exact pure (List.forall_mem_nil _)
  | cons a rest ih =>
      obtain ⟨ha, hrest⟩ := List.forall_mem_cons.mp hf
      rw [List.mapM_cons]
      exact ha.bind fun b hb => (ih hrest).bind fun bs hbs =>
        pure (List.forall_mem_cons.mpr ⟨hb, hbs⟩)

/-- An emission returns a text that it may be answered with. -/
theorem emit {v : Value} {hint : Option String} {P : Value → Prop}
    (h : ∀ text, E.answers v hint text → P (.safe text)) : Returns E I P (Eval.emit v hint) :=
  fun _ hs text htext => ⟨h text htext, hs⟩

theorem keeps {x : Eval α} (hx : Returns E I P x) : Keeps E I x :=
  ⟨hx.mono fun _ _ => trivial⟩

/-- An evaluation has a result that it may have. -/
theorem mayReturn {x : Eval α} (hx : Keeps E I x) : Returns E I x.MayReturn x := by
  refine fun s hs => (hx.returns s hs).mayEnd.mono fun r ⟨hr, hend⟩ => ?_
  rcases r with stop | ⟨a, s'⟩
  · exact hr
  · exact ⟨⟨s, s', hend⟩, hr.2⟩

end Leads

namespace Keeps

instance pure (a : α) : Keeps E I (Pure.pure a) := ⟨.pure trivial⟩

instance fail (e : EngineError) : Keeps (α := α) E I (Eval.fail e) := ⟨.fail e⟩

/-- Nothing comes behind a failure. -/
instance fail_bind (e : EngineError) (f : α → Eval β) : Keeps E I (Eval.fail e >>= f) :=
  ⟨fun _ _ => E.error e⟩

theorem stop {e : Stop} (h : E.stops e) : Keeps (α := α) E I fun _ => .done (.error e) :=
  ⟨.stop h⟩

instance get : Keeps E I MonadState.get :=
  Leads.get.keeps

theorem bind {x : Eval α} {f : α → Eval β} (hx : Keeps E I x) (hf : ∀ a, Keeps E I (f a)) :
    Keeps E I (x >>= f) :=
  ⟨.bind_keeps hx fun a => (hf a).returns⟩

/-- What comes after the state was read may count on its property. -/
theorem get_bind {f : Store → Eval β} (hf : ∀ s, I s → Keeps E I (f s)) :
    Keeps E I (MonadState.get >>= f) :=
  ⟨Leads.get.bind fun s hs => (hf s hs).returns⟩

theorem set {s : Store} (h : I s) : Keeps E I (MonadStateOf.set s) := ⟨.set h⟩

theorem update {g : Store → Store} (h : ∀ s, I s → I (g s)) : Keeps E I (modify g) :=
  ⟨Leads.update h⟩

/-- What comes next, behind an evaluation that has an instance. -/
theorem next {x : Eval α} {f : α → Eval β} [hx : Keeps E I x] (hf : ∀ a, Keeps E I (f a)) :
    Keeps E I (x >>= f) := bind hx hf

instance instBind {x : Eval α} {f : α → Eval β} [hx : Keeps E I x] [hf : ∀ a, Keeps E I (f a)] :
    Keeps E I (x >>= f) := bind hx hf

instance ite {c : Prop} [Decidable c] {x y : Eval α} [hx : Keeps E I x] [hy : Keeps E I y] :
    Keeps E I (if c then x else y) := by
  split
  · exact hx
  · exact hy

instance mapError {x : Eval α} [hx : Keeps E I x] (f : EngineError → EngineError) :
    Keeps E I (Eval.mapStop (·.mapError f) x) := ⟨hx.returns.mapStop rfl (E.mapError f)⟩

instance inMap {x : Eval α} [hx : Keeps E I x] : Keeps E I (Eval.mapStop Stop.inMap x) :=
  ⟨hx.returns.mapStop rfl E.inMap⟩

instance at_ {x : Eval α} [hx : Keeps E I x] (line : Nat) : Keeps E I (Eval.at_ line x) :=
  ⟨hx.returns.at_ line⟩

instance ofExcept (r : Except EngineError α) : Keeps E I (Eval.ofExcept r) := by
  cases r with
  | ok a => exact pure a
  | error e => exact fail e

instance lookup (name : String) : Keeps E I (Eval.lookup name) :=
  ⟨fun _ hs _ => ⟨trivial, hs⟩⟩

instance call (filter : String) (input : Value) (args : List Value) :
    Keeps E I (Eval.call filter input args) :=
  ⟨fun _ hs _ => ⟨trivial, hs⟩⟩

instance emit (v : Value) (hint : Option String) : Keeps E I (Eval.emit v hint) :=
  ⟨fun _ hs _ _ => ⟨trivial, hs⟩⟩

instance read (object : Nat) (attr : String) : Keeps E I (Eval.read object attr) :=
  ⟨fun _ hs _ => ⟨trivial, hs⟩⟩

theorem mapM {f : α → Eval β} (hf : ∀ a, Keeps E I (f a)) (items : List α) :
    Keeps E I (items.mapM f) := by
  have hloop (done : List β) : Keeps E I (List.mapM.loop f items done) := by
    induction items generalizing done with
    | nil => exact pure _
    | cons a rest ih => exact bind (hf a) fun b => ih (b :: done)
  exact hloop []

instance instMapM {f : α → Eval β} [hf : ∀ a, Keeps E I (f a)] (items : List α) :
    Keeps E I (items.mapM f) := mapM hf items

instance instForM {f : α → Eval PUnit} [hf : ∀ a, Keeps E I (f a)] (items : List α) :
    Keeps E I (items.forM f) := by
  induction items with
  | nil => exact pure _
  | cons a rest ih => exact bind (hf a) fun _ => ih

instance instFilterM {p : α → Eval Bool} [hp : ∀ a, Keeps E I (p a)] (items : List α) :
    Keeps E I (items.filterM p) := by
  have hloop (done : List α) : Keeps E I (List.filterAuxM p items done) := by
    induction items generalizing done with
    | nil => exact pure _
    | cons a rest ih => exact bind (hp a) fun b => ih _
  exact bind (hloop []) fun _ => pure _

end Keeps

end Eval

end QueryTemplate.Template
