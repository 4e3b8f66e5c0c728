import QueryTemplate.Proofs.FilterDispatch
import QueryTemplate.Proofs.FirstFailure

/-!
What becomes of the failure of a template that is included. `Reaches` says where the evaluation of a
template comes to another one through include tags before anything fails, and `Fault` why the
evaluation there fails: because the pass has recorded a failure, or because the engine has raised an
error. The two take different ways out. A recorded failure stays what it is, however deep it lies; an
error is replaced by every include tag around it, and what is reported is that of the outermost one.
-/

namespace QueryTemplate

open Template Template.Eval

/-- Why the evaluation of a template fails. -/
inductive Fault where
  /-- The pass has recorded a failure. -/
  | recorded (e : QueryError)
  /-- The engine has raised an error. -/
  | raised (e : EngineError)
  /-- A template file cannot be cut into tags. -/
  | uncut

namespace Fault

/-- What is reported of a fault. -/
def report : Fault → QueryError
  | recorded e => e
  | raised e => .ofEngine e
  | uncut => .overlappingTag

/-- Changes the error, if it is one. -/
def mapError (f : EngineError → EngineError) : Fault → Fault
  | recorded e => recorded e
  | raised e => raised (f e)
  | uncut => uncut

def ofStop : Stop → Fault
  | .error e => raised e
  | .outside _ e => raised e
  | .overlappingTag => uncut

/-- Why a run of an evaluation fails, if it does. A file that cannot be cut goes before a recorded
failure, and that one before an error. -/
def of? {ω α : Type} : Option (Except Stop (α × Store)) × PassState ω → Option Fault
  | (some (.error .overlappingTag), _) => some uncut
  | (some (.error stop), t) => some ((t.failure.map recorded).getD (ofStop stop))
  | (some (.ok _), t) => t.failure.map recorded
  | (none, t) => t.failure.map recorded

/-- How a fault looks from the outside of `n` include tags. Behind a recorded failure a template may
go on, to a file that cannot be cut. -/
def SeenAs (n : Nat) : Fault → Fault → Prop
  | recorded e, seen => seen = recorded e ∨ seen = uncut
  | raised e, seen => ∃ e', seen = raised e' ∧
      if n = 0 then e'.kind = e.kind ∧ e'.detail = e.detail ∧ e'.load = e.load
      else e'.kind = .badInclude ∧ e'.load = none
  | uncut, seen => seen = uncut

/-- What a template that includes the one with the fault reports: a recorded failure as it is, and an
error as one of the include tag. -/
def ReportedAs : Fault → QueryError → Prop
  | recorded e, err => err = e ∨ err = .overlappingTag
  | raised _, err => ∃ e, err = .engine e ∧ e.kind = .badInclude
  | uncut, err => err = .overlappingTag

theorem SeenAs.reportedAs {n : Nat} {F G : Fault} (h : F.SeenAs (n + 1) G) :
    F.ReportedAs G.report := by
  cases F with
  | recorded e =>
      rcases h with rfl | rfl
      · exact .inl rfl
      · exact .inr rfl
  | raised e =>
      obtain ⟨e', rfl, hkind, hload⟩ := h
      exact ⟨e', by simp [report, QueryError.ofEngine, hkind, hload], hkind⟩
  | uncut => cases h; rfl

end Fault

namespace PassScope

variable {ω α β γ : Type}

/-- The evaluation `x`, begun in the states `s` and `t` of the template and of the pass, comes to the
evaluation `y` in the states `s'` and `t'`, with `n` include tags in between. -/
inductive Reaches (p : PassScope ω) (y : Eval β) (s' : Store) (t' : PassState ω) :
    Nat → {α : Type} → Eval α → Store → PassState ω → Prop where
  | here : Reaches p y s' t' 0 y s' t'
  /-- In the first of two evaluations. -/
  | first {α γ : Type} {x : Eval α} {f : α → Eval γ} {n : Nat} {s : Store} {t : PassState ω}
      (h : Reaches p y s' t' n x s t) : Reaches p y s' t' n (x >>= f) s t
  /-- Behind an evaluation that succeeds. -/
  | behind {α γ : Type} {x : Eval α} {f : α → Eval γ} {n : Nat} {s s₁ : Store} {t t₁ : PassState ω}
      {a : α} (hx : p.Yields x s t a s₁ t₁) (h : Reaches p y s' t' n (f a) s₁ t₁) :
      Reaches p y s' t' n (x >>= f) s t
  | onLine {α : Type} {x : Eval α} {n : Nat} {s : Store} {t : PassState ω} (line : Nat)
      (h : Reaches p y s' t' n x s t) : Reaches p y s' t' n (at_ line x) s t
  | included {α : Type} {x : Eval α} {n : Nat} {s : Store} {t : PassState ω} (name : String)
      (h : Reaches p y s' t' n x s t) :
      Reaches p y s' t' (n + 1)
        (mapStop (·.mapError fun _ => .of .badInclude ("error in \"" ++ name ++ "\"")) x) s t

variable {p : PassScope ω}

theorem runEval_bind (x : Eval α) (f : α → Eval β) (s : Store) (t : PassState ω) :
    p.runEval (x >>= f) s t =
      match p.runEval x s t with
      | (some (.ok (a, s)), t) => p.runEval (f a) s t
      | (some (.error stop), t) => (some (.error stop), t)
      | (none, t) => (none, t) := by
  refine (run_bind (x s : Program (Except Stop (α × Store))) _ t).trans ?_
  rw [← runEval]
  rcases p.runEval x s t with ⟨_ | stop | a, t'⟩ <;> rfl

theorem runEval_mapStop (g : Stop → Stop) (x : Eval α) (s : Store) (t : PassState ω) :
    p.runEval (mapStop g x) s t = ((p.runEval x s t).1.map (·.mapError g), (p.runEval x s t).2) := by
  refine (run_bind (x s : Program (Except Stop (α × Store))) _ t).trans ?_
  rw [← runEval]
  rcases p.runEval x s t with ⟨_ | stop | a, t'⟩ <;> rfl

/-- A failure that is recorded stays. -/
theorem failure_run (hmode : p.mode = .sequential) {t : PassState ω} (ht : t.isSuspended = false)
    {e : QueryError} (he : t.failure = some e) (program : Program α) :
    (p.run program t).2.failure = some e := by
  rw [run_eq_performAll, performAll_eq hmode ht]
  simp [he]

theorem isSuspended_run (hmode : p.mode = .sequential) {t : PassState ω}
    (ht : t.isSuspended = false) (program : Program α) :
    (p.run program t).2.isSuspended = false := by
  rw [run_eq_performAll, performAll_eq hmode ht]
  exact ht

end PassScope

namespace Fault

variable {ω α β : Type} {p : PassScope ω} {n : Nat} {F G : Fault}

theorem SeenAs.refl (F : Fault) : F.SeenAs 0 F := by
  cases F with
  | recorded e => exact .inl rfl
  | raised e => exact ⟨e, rfl, by simp⟩
  | uncut => rfl

/-- Where a recorded failure is seen, the template may still come to a file that cannot be cut. -/
theorem SeenAs.uncut {e : QueryError} (h : F.SeenAs n (recorded e)) : F.SeenAs n uncut := by
  cases F with
  | recorded e' => exact .inr rfl
  | raised e' =>
      obtain ⟨_, hseen, -⟩ := h
      cases hseen
  | uncut => cases h

/-- An error may be located on the way. -/
theorem SeenAs.locate {e : EngineError} (h : F.SeenAs n (raised e)) (template : String)
    (line : Nat) : F.SeenAs n (raised (e.locate template line)) := by
  have hlocate : (e.locate template line).kind = e.kind ∧
      (e.locate template line).detail = e.detail ∧ (e.locate template line).load = e.load := by
    unfold EngineError.locate
    split <;> simp
  cases F with
  | recorded e' => rcases h with h | h <;> cases h
  | raised e' =>
      obtain ⟨_, hseen, h⟩ := h
      cases hseen
      refine ⟨_, rfl, ?_⟩
      rwa [hlocate.1, hlocate.2.1, hlocate.2.2]
  | uncut => cases h

/-- An include tag puts an error of its own in place of the one below. -/
theorem SeenAs.included {e : EngineError} (h : F.SeenAs n (raised e)) (detail : String) :
    F.SeenAs (n + 1) (raised (.of .badInclude detail)) := by
  cases F with
  | recorded e' => rcases h with h | h <;> cases h
  | raised e' => exact ⟨_, rfl, by simp [EngineError.of]⟩
  | uncut => cases h

theorem SeenAs.above (h : F.SeenAs n G) (hG : ∀ e, G ≠ raised e) : F.SeenAs (n + 1) G := by
  cases F with
  | recorded e => exact h
  | raised e =>
      obtain ⟨e', rfl, -⟩ := h
      exact absurd rfl (hG e')
  | uncut => exact h

/-- Nothing but a file that cannot be cut goes before a recorded failure. -/
theorem of?_of_failure {t : PassState ω} {e : QueryError} (h : t.failure = some e)
    (r : Option (Except Stop (α × Store))) :
    of? (r, t) = some (recorded e) ∨ of? (r, t) = some uncut := by
  rcases r with _ | (e | ⟨how, e⟩ | _) | a <;> simp [of?, h]

/-- What is behind an evaluation that fails does not change the fault, or only where the template
goes on. -/
theorem of?_bind (hmode : p.mode = .sequential) {x : Eval α} {s : Store} {t : PassState ω}
    (ht : t.isSuspended = false) (hG : of? (p.runEval x s t) = some G) (hF : F.SeenAs n G)
    (f : α → Eval β) : ∃ G, of? (p.runEval (x >>= f) s t) = some G ∧ F.SeenAs n G := by
  have hrunning := PassScope.isSuspended_run hmode ht
    (x s : Program (Except Stop (α × Store)))
  rw [PassScope.runEval_bind]
  rw [← PassScope.runEval] at hrunning
  rcases hrun : p.runEval x s t with ⟨_ | stop | ⟨a, s'⟩, t'⟩
  · rw [hrun] at hG
    exact ⟨G, hG, hF⟩
  · rw [hrun] at hG
    cases stop <;> exact ⟨G, hG, hF⟩
  · -- the evaluation went on, so the failure is a recorded one
    rw [hrun] at hG hrunning
    obtain ⟨e, he, rfl⟩ : ∃ e, t'.failure = some e ∧ recorded e = G := by
      simpa [of?] using hG
    rcases of?_of_failure (PassScope.failure_run hmode hrunning he _)
      (p.runEval (f a) s' t').1 with h | h
    · exact ⟨_, h, hF⟩
    · exact ⟨_, h, hF.uncut⟩

/-- What is done to an error does not change the other faults. -/
theorem of?_mapError {x : Eval α} {s : Store} {t : PassState ω}
    (hG : of? (p.runEval x s t) = some G) (f : EngineError → EngineError) :
    of? (p.runEval (mapStop (·.mapError f) x) s t) = some (G.mapError f) := by
  have hmap (r : Option (Except Stop (α × Store)) × PassState ω) :
      of? (r.1.map (Except.mapError (·.mapError f)), r.2) = (of? r).map (mapError f) := by
    rcases r with ⟨_ | (e | ⟨how, e⟩ | _) | a, t'⟩ <;>
      cases h : t'.failure <;>
      simp [of?, h, mapError, Except.mapError, Stop.mapError, ofStop]
  rw [PassScope.runEval_mapStop, hmap, hG]
  rfl

end Fault

/-- A fault is seen from where an evaluation with it is reached. -/
theorem PassScope.Reaches.fault {ω α β : Type} {p : PassScope ω} (hmode : p.mode = .sequential)
    {y : Eval β} {s s' : Store} {t t' : PassState ω} {x : Eval α} {n : Nat}
    (h : p.Reaches y s' t' n x s t) (ht : t.isSuspended = false) {F : Fault}
    (hF : Fault.of? (p.runEval y s' t') = some F) :
    ∃ G, Fault.of? (p.runEval x s t) = some G ∧ F.SeenAs n G := by
  induction h with
  | here => exact ⟨F, hF, .refl F⟩
  | first h ih =>
      obtain ⟨G, hG, hseen⟩ := ih ht
      exact Fault.of?_bind hmode ht hG hseen _
  | @behind _ _ x f n s s₁ t t₁ a hx h ih =>
      have hrunning := isSuspended_run hmode ht (x s : Program (Except Stop (_ × Store)))
      rw [hx] at hrunning
      obtain ⟨G, hG, hseen⟩ := ih hrunning
      refine ⟨G, ?_, hseen⟩
      rwa [runEval_bind, runEval, hx]
  | @onLine _ x n s t line h ih =>
      obtain ⟨G, hG, hseen⟩ := ih ht
      refine ⟨_, Fault.of?_mapError hG (·.locate s.template line), ?_⟩
      cases G with
      | raised e => exact hseen.locate _ _
      | recorded e => exact hseen
      | uncut => exact hseen
  | @included _ x n s t name h ih =>
      -- An error that is raised gets the included template around it; the others are not changed.
      obtain ⟨G, hG, hseen⟩ := ih ht
      refine ⟨_, Fault.of?_mapError hG _, ?_⟩
      cases G with
      | raised e => exact hseen.included _
      | recorded e => exact hseen.above (by simp)
      | uncut => exact hseen.above (by simp)

/-! ### Include tags -/

namespace Template

/-- The state that an included template begins in. -/
def Store.including (s : Store) (src : Source) : Store :=
  { s with
    escaping := .verbatim
    blocks := blockStacks src
    frames := setClosure none s.frames
    outerDepth := s.outerDepth + inclusionWeight }

namespace Eval

/-- A tag with the name of a template includes it. -/
theorem includeTemplate_found {env : Environment} {name : String} {src : Source}
    (h : env.find name = .ok (some src)) (deeper : Deeper) (ignoreMissing : Bool) :
    includeTemplate env deeper (.str name) ignoreMissing = runIncluded deeper src := by
  have hfirst : includeFirst env deeper ignoreMissing [] [.str name] = runIncluded deeper src := by
    simp [includeFirst, Value.asString?, h]
  rw [← hfirst]
  rfl

end Eval

end Template

namespace PassScope

variable {ω α β : Type} {p : PassScope ω} {env : Environment} {deeper : Deeper} {y : Eval β}
  {s s' : Store} {t t' : PassState ω} {n : Nat}

theorem yields_checkDepth (h : s.outerDepth + s.frames.length ≤ maxDepth) :
    p.Yields checkDepth s t ⟨⟩ s t := by
  refine .bind (.bind (.get s t) (.pure _ s t)) ?_
  rw [if_neg (Nat.not_lt.mpr h)]
  exact .pure _ s t

/-- What an included template reaches is reached by including it, unless templates are nested too
deeply. -/
theorem Reaches.runIncluded {src : Source}
    (hdepth : (s.including src).outerDepth + (s.including src).frames.length ≤ maxDepth)
    (h : p.Reaches y s' t' n (deeper (.unit src.name src.body)) (s.including src) t) :
    p.Reaches y s' t' (n + 1) (runIncluded deeper src) s t :=
  .behind (.get s t) (.behind (.set _ s t) (.behind
    (.bind (.update _ _ t) (yields_checkDepth hdepth)) (.first (.included _ (.first h)))))

/-- The same for the tag. -/
theorem Reaches.tag {src : Source} {name : String} (hfind : env.find name = .ok (some src))
    (hdepth : (s.including src).outerDepth + (s.including src).frames.length ≤ maxDepth)
    (h : p.Reaches y s' t' n (deeper (.unit src.name src.body)) (s.including src) t)
    (line place : Nat) (ignoreMissing : Bool) :
    p.Reaches y s' t' (n + 1)
      (exec env deeper (.inclusion line (.const place (.str name)) ignoreMissing)) s t := by
  rw [exec]
  refine .behind (a := .str name) (.pure _ s t) (.onLine line ?_)
  rw [includeTemplate_found hfind]
  exact h.runIncluded hdepth

/-- What is reached behind a text of the template. -/
theorem Reaches.text {stmts : List Stmt} {line : Nat} {text : String}
    {sink : List Template.Piece} {sinks : List (Option (List Template.Piece))}
    (hsinks : s.sinks = some sink :: sinks)
    (h : p.Reaches y s' t' n (execBody env deeper stmts)
      { s with sinks := some (.literal text :: sink) :: sinks } t) :
    p.Reaches y s' t' n (execBody env deeper (.text line text :: stmts)) s t := by
  rw [execBody, exec]
  refine .behind (.update _ s t) ?_
  simpa only [hsinks] using h

/-- What is reached in the body of a template. -/
theorem Reaches.unit {levels : Nat} {template : String} {body : List Stmt}
    (h : p.Reaches y s' t' n (execBody env (doTask env levels) body)
      { s with template, parent := none } t) :
    p.Reaches y s' t' n (doTask env (levels + 1) (.unit template body)) s t :=
  .first (.behind (.get s t) (.behind (.set _ s t) (.first h)))

end PassScope

/-- A chain of `n` templates, each of which includes the next one behind nothing but text, and the
last one `last`. -/
inductive QueryEngine.LeadsTo {ω : Type} (e : QueryEngine ω) (last : Source) :
    Nat → Source → Prop where
  | refl : LeadsTo e last 0 last
  | tag {n : Nat} {src next : Source} (texts : List (Nat × String)) (line place : Nat)
      (name : String) (ignoreMissing : Bool) (rest : List Stmt)
      (hbody : src.body = texts.map (fun (line, text) => .text line text) ++
        .inclusion line (.const place (.str name)) ignoreMissing :: rest)
      (hfind : e.findTemplate name = .ok (some next)) (hnext : LeadsTo e last n next) :
      LeadsTo e last (n + 1) src

/-- The state in which a template begins that is included behind text, on the given depth. -/
def Template.Store.nested (src : Source) (depth : Nat) (template : String) (chain : List String)
    (sink : List Template.Piece) : Store :=
  { Store.initial src with outerDepth := depth, template, chain, sinks := [some sink] }

namespace PassScope

variable {ω β : Type} {p : PassScope ω} {env : Environment}

theorem Reaches.texts {deeper : Deeper} {y : Eval β} {s s' : Store} {t t' : PassState ω} {n : Nat}
    {stmts : List Stmt} (texts : List (Nat × String)) {sink : List Template.Piece}
    (hsinks : s.sinks = [some sink])
    (h : p.Reaches y s' t' n (execBody env deeper stmts)
      { s with sinks := [some ((texts.map (.literal ·.2)).reverse ++ sink)] } t) :
    p.Reaches y s' t' n
      (execBody env deeper (texts.map (fun (line, text) => .text line text) ++ stmts)) s t := by
  induction texts generalizing s sink with
  | nil => simpa [← hsinks] using h
  | cons text texts ih => exact .text hsinks (ih rfl (by simpa using h))

/-- The last template of a chain is reached in the state that is due to its depth. -/
theorem reaches_of_leadsTo (p : PassScope ω) {e : QueryEngine ω} (context : Context ω)
    {last src : Source} {n : Nat} (h : e.LeadsTo last n src) (levels : Nat) {depth : Nat}
    (hdepth : depth + 10 * n + 1 ≤ maxDepth) (template : String) (chain : List String)
    (sink : List Template.Piece) (t : PassState ω) :
    ∃ template' sink',
      p.Reaches (doTask (e.environment context) levels (.unit last.name last.body))
        (.nested last (depth + 10 * n) template' chain sink') t n
        (doTask (e.environment context) (levels + n) (.unit src.name src.body))
        (.nested src depth template chain sink) t := by
  induction h generalizing depth template sink with
  | refl => exact ⟨template, sink, .here⟩
  | @tag n src next texts line place name ignoreMissing rest hbody hfind hnext ih =>
      obtain ⟨template', sink', hreach⟩ := ih (by omega : depth + 10 + 10 * n + 1 ≤ maxDepth) src.name
        ((texts.map (.literal ·.2)).reverse ++ sink)
      rw [show depth + 10 + 10 * n = depth + 10 * (n + 1) by omega] at hreach
      refine ⟨template', sink', .unit ?_⟩
      rw [hbody]
      refine .texts texts rfl (.first (.tag hfind ?_ hreach line place ignoreMissing))
      show depth + 10 + 1 ≤ maxDepth
      omega

end PassScope

/-! ### What a render reports -/

theorem QueryError.ofEngine_ne_overlappingTag (e : EngineError) : ofEngine e ≠ .overlappingTag := by
  rw [ofEngine]
  cases e.load with
  | some fault => simp
  | none => cases e.kind <;> simp

namespace PassScope

variable {ω α : Type} {p : PassScope ω}

theorem failure_of_call_eq_none (hmode : p.mode = .sequential) {filter : String} {input : Value}
    {args : List Value} {t t' : PassState ω} (ht : t.isSuspended = false)
    (h : p.call filter input args t = (none, t')) : t'.failure ≠ none := by
  simp only [call, ht, callSync, callAsync, hmode, Bool.false_eq_true, if_false] at h
  split at h
  · cases h
    simp [PassState.fail]
  · split at h <;> cases h
    simp [PassState.fail]
  · cases h
    simp [PassState.fail]

theorem failure_of_emit_eq_none {v : Value} {hint : Option String} {t t' : PassState ω}
    (ht : t.isSuspended = false) (h : t.emit v hint = (none, t')) : t'.failure ≠ none := by
  rw [PassState.emit_eq ht] at h
  split at h <;> cases h
  simp [PassState.fail]

theorem isSuspended_perform (hmode : p.mode = .sequential) {t : PassState ω}
    (ht : t.isSuspended = false) (step : PassStep) : (p.perform t step).isSuspended = false := by
  rw [perform_eq hmode ht]
  exact ht

/-- A sequential pass ends a program before its end only with a failure. -/
theorem failure_of_run_eq_none (hmode : p.mode = .sequential) {program : Program α}
    {t t' : PassState ω} (ht : t.isSuspended = false) (h : p.run program t = (none, t')) :
    t'.failure ≠ none := by
  induction program generalizing t with
  | done a => cases h
  | lookup name next ih => exact ih _ (isSuspended_perform hmode ht (.lookup name)) h
  | call filter input args next ih =>
      have hrunning := isSuspended_perform hmode ht (.call filter input args)
      rw [run_call] at h
      rw [perform] at hrunning
      rcases hcall : p.call filter input args t with ⟨_ | v, u⟩ <;> rw [hcall] at h hrunning
      · cases h
        exact failure_of_call_eq_none hmode ht hcall
      · exact ih v hrunning h
  | emit v hint next ih =>
      have hrunning := isSuspended_perform hmode ht (.emit v hint)
      rw [run_emit] at h
      rw [perform] at hrunning
      rcases hemit : t.emit v hint with ⟨_ | text, u⟩ <;> rw [hemit] at h hrunning
      · cases h
        exact failure_of_emit_eq_none ht hemit
      · exact ih text hrunning h
  | read object attr next ih => exact ih _ (isSuspended_perform hmode ht (.read object attr)) h

/-- The evaluation of a template from its beginning. -/
def evaluate (p : PassScope ω) (e : QueryEngine ω) (src : Source) (t : PassState ω) :
    Option (Except Stop (Value × Store)) × PassState ω :=
  p.runEval (doTask (e.environment p.context) Template.maxLevels (.unit src.name src.body))
    (Store.initial src) t

theorem outcome_of_error {program : Program (Except QueryError String)} {t t' : PassState ω}
    {err : QueryError} (h : p.run program t = (some (.error err), t'))
    (herr : err ≠ .overlappingTag) : (p.outcome program t).1 = t'.finish (.error err) := by
  rw [outcome, h]
  split
  · rename_i heq
    cases heq
    exact absurd rfl herr
  · rename_i heq
    cases heq
    rfl
  · rename_i heq
    cases heq

/-- How the evaluation of a template ends the pass over it. -/
theorem outcome_program (e : QueryEngine ω) (src : Source) (t : PassState ω) :
    (p.outcome (e.program p.context src) t).1 =
      match p.evaluate e src t with
      | (some (.error .overlappingTag), _) => .failed .overlappingTag
      | (some (.error stop), t) => t.finish (.error stop.toQueryError)
      | (some (.ok (_, s)), t) => t.finish (.ok (outputText s.output))
      | (none, t) => t.finish (.error aborted) := by
  have hrun := run_bind (p := p) (β := Except QueryError String)
    (doTask (e.environment p.context) Template.maxLevels
      (.unit src.name src.body) (Store.initial src) : Program (Except Stop (Value × Store)))
  rw [QueryEngine.program, Source.program, Program.bind_bind]
  rcases heval : p.evaluate e src t with ⟨_ | (err | ⟨how, err⟩ | _) | a, t'⟩ <;>
    rw [evaluate, runEval] at heval
  · rw [outcome, hrun, heval]
  · exact outcome_of_error (by rw [hrun, heval]; rfl) (QueryError.ofEngine_ne_overlappingTag err)
  · exact outcome_of_error (by rw [hrun, heval]; rfl) (QueryError.ofEngine_ne_overlappingTag err)
  · rw [outcome, hrun, heval]
    rfl
  · rw [outcome, hrun, heval]
    rfl

/-- A pass over a template fails exactly if the evaluation of the template has a fault, and it
reports that fault. -/
theorem outcome_eq_failed_iff (hmode : p.mode = .sequential) {e : QueryEngine ω} {src : Source}
    {t : PassState ω} (ht : t.isSuspended = false) {err : QueryError} :
    (p.outcome (e.program p.context src) t).1 = .failed err ↔
      ∃ F, Fault.of? (p.evaluate e src t) = some F ∧ F.report = err := by
  rw [outcome_program]
  have hrunning : (p.evaluate e src t).2.isSuspended = false := isSuspended_run hmode ht _
  have hrefused (t' : PassState ω) (h : p.evaluate e src t = (none, t')) : t'.failure ≠ none :=
    failure_of_run_eq_none hmode ht h
  rcases hrun : p.evaluate e src t with ⟨result, t'⟩
  rw [hrun] at hrunning hrefused
  have hsuspension : t'.suspension = none := by simpa [PassState.isSuspended] using hrunning
  rcases result with _ | (err | ⟨how, err⟩ | _) | a <;> cases hfailure : t'.failure <;>
    simp_all [Fault.of?, PassState.finish, Fault.report, Fault.ofStop, Stop.toQueryError]

/-- A sequential pass waits for nothing. -/
theorem outcome_ne_suspended (hmode : p.mode = .sequential) {e : QueryEngine ω} {src : Source}
    {t : PassState ω} (ht : t.isSuspended = false) (pending : Suspension ω) :
    (p.outcome (e.program p.context src) t).1 ≠ .suspended pending := by
  rw [outcome_program]
  have hrunning : (p.evaluate e src t).2.isSuspended = false := isSuspended_run hmode ht _
  rcases hrun : p.evaluate e src t with ⟨result, t'⟩
  rw [hrun] at hrunning
  have hsuspension : t'.suspension = none := by simpa [PassState.isSuspended] using hrunning
  rcases result with _ | (err | ⟨how, err⟩ | _) | a <;> cases hfailure : t'.failure <;>
    simp [PassState.finish, hsuspension, hfailure]

end PassScope

namespace QueryEngine

variable {ω : Type}

/-- The pass that a sequential render makes. -/
def sequentialPass (e : QueryEngine ω) (context : Context ω) (options : RenderOptions) :
    PassScope ω :=
  { registry := e.registry, context, options, mode := .sequential }

/-- Why the sequential render of a template fails, if it does. -/
def fault? (e : QueryEngine ω) (src : Source) (context : Context ω) (options : RenderOptions)
    (world : ω) : Option Fault :=
  Fault.of? ((e.sequentialPass context options).evaluate e src { world })

/-- A sequential render fails exactly if the evaluation of its template has a fault, and it reports
that fault. -/
theorem renderProgram_eq_error_iff {e : QueryEngine ω} {src : Source} {context : Context ω}
    (hvalid : context.validate = .ok ()) {options : RenderOptions} {world : ω} {err : QueryError} :
    (e.renderProgram .sequential (e.program context src) context options world).1 = .error err ↔
      ∃ F, e.fault? src context options world = some F ∧ F.report = err := by
  have hnever (pending : Suspension ω) :
      ((e.sequentialPass context options).outcome (e.program context src) { world }).1 ≠
        .suspended pending := PassScope.outcome_ne_suspended rfl rfl pending
  rw [fault?, ← PassScope.outcome_eq_failed_iff rfl rfl, renderProgram,
    RenderProgram.renderSequential, hvalid]
  rcases houtcome : (e.sequentialPass context options).outcome (e.program context src) { world }
    with ⟨marked | pending | fault, s⟩ <;> rw [houtcome] at hnever <;>
    simp only [sequentialPass] at houtcome ⊢
  · simp [houtcome]
  · exact absurd rfl (hnever pending)
  · simp [houtcome]

/-- Where a template is reached through include tags and its evaluation has a fault, the render of the
including template reports it: a failure that the pass has recorded is reported as it is at any depth,
and an error that the engine has raised as one of the outermost include tag. -/
theorem reported_of_reaches {e : QueryEngine ω} {context : Context ω}
    (hvalid : context.validate = .ok ()) {options : RenderOptions} {world : ω} {main : Source}
    {β : Type} {y : Eval β} {s : Store} {t : PassState ω} {n : Nat}
    (hreach : (e.sequentialPass context options).Reaches y s t (n + 1)
      (doTask (e.environment context) Template.maxLevels (.unit main.name main.body))
      (Store.initial main) { world })
    {F : Fault} (hF : Fault.of? ((e.sequentialPass context options).runEval y s t) = some F) :
    ∃ err, F.ReportedAs err ∧
      (e.renderProgram .sequential (e.program context main) context options world).1 =
        .error err := by
  obtain ⟨G, hG, hseen⟩ := hreach.fault rfl rfl hF
  exact ⟨G.report, hseen.reportedAs, (renderProgram_eq_error_iff hvalid).mpr ⟨G, hG, rfl⟩⟩

/-- Which way a failure takes out of included templates. Wherever a template is reached through include
tags, what the pass has recorded there is reported as it is, at any depth, and what the engine has
raised there as an error of the outermost include tag, whatever its kind. A template at the end of a
chain of templates that include each other behind text is reached, as long as the chain is not too
long for the engine. -/
theorem included_failure_reported {e : QueryEngine ω} {context : Context ω}
    (hvalid : context.validate = .ok ()) (options : RenderOptions) (world : ω) (main : Source) :
    (∀ {β : Type} (y : Eval β) (s : Store) (t : PassState ω) (n : Nat) (F : Fault),
      (e.sequentialPass context options).Reaches y s t (n + 1)
        (doTask (e.environment context) Template.maxLevels (.unit main.name main.body))
        (Store.initial main) { world } →
      Fault.of? ((e.sequentialPass context options).runEval y s t) = some F →
      ∃ err, F.ReportedAs err ∧
        (e.renderProgram .sequential (e.program context main) context options world).1 =
          .error err) ∧
    (∀ (last : Source) (n : Nat), e.LeadsTo last n main → n < 50 →
      ∃ template sink, (e.sequentialPass context options).Reaches
        (doTask (e.environment context) (Template.maxLevels - n) (.unit last.name last.body))
        (.nested last (10 * n) template [main.name] sink) { world } n
        (doTask (e.environment context) Template.maxLevels (.unit main.name main.body))
        (Store.initial main) { world }) := by
  refine ⟨fun y s t n F hreach hF => reported_of_reaches hvalid hreach hF, fun last n h hn => ?_⟩
  have hdepth : 0 + 10 * n + 1 ≤ maxDepth := by
    simp only [maxDepth]
    omega
  obtain ⟨template, sink, hreach⟩ := (e.sequentialPass context options).reaches_of_leadsTo context h
    (Template.maxLevels - n) hdepth main.name [main.name] [] { world }
  rw [Nat.sub_add_cancel (by simp only [Template.maxLevels]; omega), Nat.zero_add] at hreach
  exact ⟨template, sink, hreach⟩

/-- A template with an attribute of an undefined value. -/
def brokenSource : Source where
  name := "t"
  body := [.emit 1 (.attr (.var 1 "missing") "x")]
  blocks := []

/-- A template that includes it. -/
def includingSource : Source where
  name := "main"
  body := [.text 1 "SELECT ", .inclusion 1 (.const 1 (.str "t")) false]
  blocks := []

def includingEngine : QueryEngine Unit :=
  { new .empty with inline := [("main", includingSource), ("t", brokenSource)] }

theorem includingSource_failure_reported : ∃ err : EngineError, err.kind = .badInclude ∧
    (includingEngine.renderProgram .sequential (includingEngine.program .empty includingSource)
      .empty {} ()).1 = .error (.engine err) := by
  have hvalid : (Context.empty : Context Unit).validate = .ok () := rfl
  obtain ⟨hreported, hreached⟩ := included_failure_reported (e := includingEngine) hvalid {} ()
    includingSource
  obtain ⟨template, sink, hreach⟩ := hreached brokenSource 1
    (.tag [(1, "SELECT ")] 1 1 "t" false [] rfl rfl .refl) (by decide)
  obtain ⟨_, ⟨err, rfl, hkind⟩, hrender⟩ := hreported _ _ _ 0
    (.raised (EngineError.undefined.locate "t" 1)) hreach rfl
  exact ⟨err, hkind, hrender⟩

/-- An engine error of an included template has another kind than that of the template. -/
theorem included_undefined_rendered :
    let rendered : Except QueryError (List (Except String String)) := do
      let e ← (new default : QueryEngine Unit).addTemplate "t" "\x7b\x7b missing.x \x7d\x7d"
      let e ← e.addTemplate "main" "\x7b% include 't' %\x7d"
      return ["t", "main"].map fun name =>
        (e.render .sequential name .empty {} ()).1.mapError QueryError.kind |>.map (·.query)
    rendered = .ok [.error "UndefinedValue", .error "Engine"] := by
  decide +kernel

end QueryEngine

end QueryTemplate
