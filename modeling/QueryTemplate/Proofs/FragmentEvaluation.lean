import QueryTemplate.Proofs.FragmentParsing
import QueryTemplate.Proofs.FragmentQuery
import QueryTemplate.Proofs.Yields
import QueryTemplate.Template.Run

/-!
How the statements of a template without control flow are evaluated: each tag looks up its variable,
calls its filter and emits the result, and the text that is returned is written in place of the tag.
-/

namespace QueryTemplate

open Template Template.Eval

/-- The filters of tags are the built-in ones. -/
structure FilterRegistry.HasTagFilters {ω : Type} (r : FilterRegistry ω) (dispatched : List String) :
    Prop where
  identifier : r.filters.find? "identifier" = some (.ofFunction Builtin.identifier)
  inclause : r.filters.find? "inclause" = some (.ofFunction Builtin.inclause)
  identifier_dispatched : dispatched.contains "identifier" = true
  inclause_dispatched : dispatched.contains "inclause" = true

namespace PassScope

variable {ω : Type} {p : PassScope ω}

/-- A filter without effects that is called with a value. -/
theorem call_function (hmode : p.mode = .sequential) {name : String}
    {run : FilterScope → Classified → List Value → Except FilterError Classified}
    (hfind : p.registry.filters.find? name = some (.ofFunction run)) {input : Value}
    {args : List Value} {output : Classified}
    (h : run p.filterScope (classify input) args = .ok output) {t : PassState ω}
    (ht : t.isSuspended = false) : p.call name input args t = (some output.toValue, t) := by
  rw [PassScope.call, if_neg (by simp [ht]), FilterRegistry.resolve, hfind]
  simp only [Filter.ofFunction, callSync, hmode, runSync, h]

end PassScope

namespace PassScope.Yields

variable {ω : Type} {p : PassScope ω} {env : Environment} {s : Store} {t : PassState ω}

/-! ### Values for the surroundings -/

theorem expand_scalar {v : Value} (h : v.isScalar = true) (levels : Nat) :
    p.Yields (expand env levels v) s t v s t := by
  cases levels with
  | zero => exact pure _ _ _
  | succ levels => cases v <;> first | exact pure _ _ _ | contradiction

theorem snapshot_scalar {v : Value} (h : v.isScalar = true) :
    p.Yields (snapshot env v) s t v s t :=
  expand_scalar h _

theorem expand_scalars {items : List Value} (h : ∀ v ∈ items, v.isScalar = true) (levels : Nat) :
    p.Yields (items.mapM (expand env levels)) s t items s t :=
  mapM_self s t fun v hv => expand_scalar (h v hv) levels

theorem snapshot_list {items : List Value} (h : ∀ v ∈ items, v.isScalar = true) :
    p.Yields (snapshot env (.list items)) s t (.list items) s t := by
  rw [snapshot, Eval.maxLevels, expand]
  exact bind (expand_scalars h _) (pure _ _ _)

theorem snapshot_params {items : List Value} (h : ∀ v ∈ items, v.isScalar = true) :
    p.Yields (snapshot env (.params items)) s t (.params items) s t := by
  rw [snapshot, Eval.maxLevels, expand]
  exact bind (expand_scalars h _) (pure _ _ _)

/-! ### Variables -/

theorem load_root {name : String} {v : Value} (hs : s.frames = [{ base := .root }])
    (hroot : p.Yields (loadRoot name) s t (some v) s t) :
    p.Yields (load name) s t (some v) s t := by
  have hframes : p.Yields (loadFrom name s.frames) s t (some v) s t := by
    rw [hs, loadFrom]
    exact bind hroot (pure _ _ _)
  exact bind (get s t) (bind hframes (pure _ _ _))

/-- The variable that refers to the render. -/
theorem load_scope (hs : s.frames = [{ base := .root }]) :
    p.Yields (load scopeName) s t (some (.object .root)) s t :=
  load_root hs ((pure _ _ _).of_eq (if_pos rfl))

/-- A variable with its value in the context. -/
theorem load_variable {name : String} (hname : isReservedName name = false) {v : Value}
    (hcontext : p.context.get? name = some (.value v)) (hs : s.frames = [{ base := .root }]) :
    p.Yields (load name) s t (some v) s t := by
  have hne : name ≠ scopeName := by
    rintro rfl
    exact absurd hname (by decide)
  have hlookup : p.lookup name t = (some v, t) := by
    rw [PassScope.lookup, hcontext]
  exact load_root hs ((lookup hlookup s).of_eq (if_neg hne))

/-! ### Filters -/

/-- The arguments of the emit filter, evaluated. -/
def emitArguments (hint : String) : CallArgs :=
  { positional := [.object .root, .str hint] }

/-- The emit filter returns what the pass writes for the value. -/
theorem emitFilter {v : Value} {hint text : String} {t' : PassState ω}
    (hv : p.Yields (snapshot env v) s t v s t) (hemit : t.emit v (some hint) = (some text, t')) :
    p.Yields (Eval.emitFilter env v (emitArguments hint)) s t (.safe text) s t' := by
  have hgiven : p.Yields ((emitArguments hint).upTo 2) s t [.object .root, .str hint] s t :=
    pure _ _ _
  have htext : p.Yields (Argument.text env (.str hint)) s t hint s t :=
    bind (pure _ _ _) (bind (snapshot_scalar rfl) (pure _ _ _))
  have hhint : p.Yields (Argument.optional (Argument.text env) (some (.str hint))) s t
      (some hint) s t :=
    bind htext (pure _ _ _)
  exact bind hgiven (bind (pure _ _ _) (bind hhint (bind hv (emit hemit s))))

/-- A registered filter without effects. -/
theorem applyFilter_function (hmode : p.mode = .sequential) {name : String} (hname : name ≠ emitName)
    {run : FilterScope → Classified → List Value → Except FilterError Classified}
    (hregistered : env.registered.contains name = true)
    (hfind : p.registry.filters.find? name = some (.ofFunction run)) {v : Value}
    (hv : p.Yields (snapshot env v) s t v s t) {output : Classified}
    (h : run p.filterScope (classify v) [] = .ok output)
    (hs : s.frames = [{ base := .root }]) (ht : t.isSuspended = false) :
    p.Yields (applyFilter env name v none []) s t output.toValue s t := by
  have hcall := call (call_function hmode hfind h ht) s
  have hscope : p.Yields (callRegistered env name v {}) s t output.toValue s t :=
    bind (load_scope hs) (bind hv (bind (pure [] s t) hcall))
  rw [applyFilter.eq_def, if_neg hname, if_pos hregistered]
  exact hscope

/-- A filter without arguments behind an expression. -/
theorem eval_filter {deeper : Deeper} {line l : Nat} {e : Expr} {name : String} {v w : Value}
    (he : p.Yields (eval env deeper {} l e) s t v s t)
    (happly : p.Yields (applyFilter env name v none []) s t w s t) :
    p.Yields (eval env deeper {} line (.filter l (some e) name [])) s t w s t := by
  have hgiven : p.Yields (gather env [] none) s t {} s t := bind (pure _ _ _) (pure _ _ _)
  rw [eval]
  refine bind he ?_
  simp only [evalPositional, evalNamed]
  refine bind (pure _ _ _) (bind (pure _ _ _) (at_ (bind hgiven ?_) _))
  exact happly

/-- The emit filter behind an expression. -/
theorem eval_emit {deeper : Deeper} {line l : Nat} {e : Expr} {hint : String} {v w : Value}
    {t' : PassState ω} (hs : s.frames = [{ base := .root }])
    (he : p.Yields (eval env deeper {} l e) s t v s t)
    (hemit : p.Yields (Eval.emitFilter env v (emitArguments hint)) s t w s t') :
    p.Yields (eval env deeper {} line (.filter l (some e) emitName
      [(.positional, .var l scopeName), (.positional, .const l (.str hint))])) s t w s t' := by
  have hpositional (middle : Nat) : p.Yields (evalPositional env deeper middle
      [(.positional, .var l scopeName), (.positional, .const l (.str hint))]) s t
        [(false, .object .root), (false, .str hint)] s t := by
    simp only [evalPositional, eval]
    exact bind (bind (load_scope hs) (pure _ _ _))
      (bind (bind (pure _ _ _) (bind (pure _ _ _) (pure _ _ _))) (pure _ _ _))
  have hnamed (middle : Nat) : p.Yields (evalNamed env deeper middle
      [(.positional, .var l scopeName), (.positional, .const l (.str hint))]) s t none s t := by
    simp only [evalNamed]
    exact pure _ _ _
  have hgiven : p.Yields (gather env [(false, .object .root), (false, .str hint)] none) s t
      (emitArguments hint) s t :=
    bind (pure _ _ _) (bind (bind (bind (pure _ _ _) (pure _ _ _)) (pure _ _ _)) (pure _ _ _))
  have happly : applyFilter env emitName v none [.object .root, .str hint] =
      Eval.emitFilter env v (emitArguments hint) := by
    rw [applyFilter.eq_def, if_pos rfl]
    rfl
  rw [eval]
  refine bind he (bind (hpositional _) (bind (hnamed _) (at_ (bind hgiven ?_) _)))
  exact hemit.of_eq happly

end PassScope.Yields

/-! ### Tags -/

namespace TagKind

variable {ω : Type} {p : PassScope ω} {env : Environment} {s : Store} {t : PassState ω}

variable {kind : TagKind} {quote : Option Char} {v : Value}

theorem Fits.snapshot_emission (h : kind.Fits quote v) :
    p.Yields (snapshot env (kind.emission quote v)) s t (kind.emission quote v) s t := by
  cases h with
  | plain hscalar _ => exact .snapshot_scalar hscalar
  | identifier hquoted =>
      rw [emission, hquoted]
      exact .snapshot_scalar rfl
  | inclause hscalar => exact .snapshot_params hscalar

/-- The variable of a tag with its filter comes to what the tag emits. -/
theorem Fits.eval_operand (h : kind.Fits p.options.identifierQuote v)
    (hp : p.registry.HasTagFilters env.registered) (hmode : p.mode = .sequential) {name : String}
    (hname : isReservedName name = false) (hcontext : p.context.get? name = some (.value v))
    (hs : s.frames = [{ base := .root }]) (ht : t.isSuspended = false) (deeper : Deeper)
    (line l : Nat) :
    p.Yields (eval env deeper {} line (kind.operand l name)) s t
      (kind.emission p.options.identifierQuote v) s t := by
  have hvar (line : Nat) : p.Yields (eval env deeper {} line (.var l name)) s t v s t := by
    rw [eval]
    exact .bind (.load_variable hname hcontext hs) (.pure _ _ _)
  cases h with
  | plain hscalar hplain =>
      exact hvar line
  | @identifier text quoted hquoted =>
      have hrun : Builtin.identifier p.filterScope (classify (.str text)) [] = .ok (.raw quoted) := by
        simp [Builtin.identifier, classify, Builtin.identifierSegments, Value.asString?,
          Builtin.quoteAll, PassScope.filterScope, hquoted]
      rw [emission, hquoted]
      exact .eval_filter (hvar l)
        (.applyFilter_function hmode (by decide) hp.identifier_dispatched hp.identifier
          (.snapshot_scalar rfl) hrun hs ht)
  | @inclause items hscalar =>
      have hrun : Builtin.inclause p.filterScope (classify (.list items)) [] =
          .ok (.parameter (.params items) none) := rfl
      exact .eval_filter (hvar l)
        (.applyFilter_function hmode (by decide) hp.inclause_dispatched hp.inclause
          (.snapshot_list hscalar) hrun hs ht)

/-- A tag is replaced by what emission writes for it. -/
theorem Fits.eval_emitted (h : kind.Fits p.options.identifierQuote v)
    (hp : p.registry.HasTagFilters env.registered) (hmode : p.mode = .sequential) {name : String}
    (hname : isReservedName name = false) (hcontext : p.context.get? name = some (.value v))
    (hs : s.frames = [{ base := .root }]) (ht : t.isSuspended = false) (deeper : Deeper)
    (line l : Nat) :
    let emitted := kind.emission p.options.identifierQuote v
    p.Yields (eval env deeper {} line (kind.emitted l name)) s t
      (.safe (Emission.written t.captures.length emitted)) s
      (t.extend (Emission.bound emitted (some name))) :=
  .eval_emit hs (h.eval_operand hp hmode hname hcontext hs ht deeper l l)
    (.emitFilter h.snapshot_emission (PassState.emit_of_defined ht h.isUndefined_emission _))

end TagKind

/-! ### Statements -/

namespace Template.Store

/-- The second store has the text behind the output of the first one, and is the same otherwise. -/
def Wrote (s s' : Store) (text : String) : Prop :=
  ∃ pieces pieces', s.sinks = [some pieces] ∧ s' = { s with sinks := [some pieces'] } ∧
    outputOf pieces' = outputOf pieces ++ text

variable {s s' s'' : Store} {text more : String}

theorem wrote_nothing {pieces : List Template.Piece} (h : s.sinks = [some pieces]) :
    s.Wrote s "" :=
  ⟨pieces, pieces, h, by rw [← h], by rw [String.append_empty]⟩

theorem Wrote.trans (h : s.Wrote s' text) (h' : s'.Wrote s'' more) :
    s.Wrote s'' (text ++ more) := by
  obtain ⟨pieces, middle, hs, rfl, hmiddle⟩ := h
  obtain ⟨middle', pieces', hs', rfl, hpieces⟩ := h'
  obtain rfl : middle = middle' := by simpa using hs'
  exact ⟨pieces, pieces', hs, rfl, by rw [hpieces, hmiddle, String.append_assoc]⟩

theorem Wrote.frames (h : s.Wrote s' text) : s'.frames = s.frames := by
  obtain ⟨pieces, pieces', -, rfl, -⟩ := h
  rfl

theorem Wrote.sinks (h : s.Wrote s' text) : ∃ pieces, s'.sinks = [some pieces] := by
  obtain ⟨pieces, pieces', -, rfl, -⟩ := h
  exact ⟨pieces', rfl⟩

theorem Wrote.outputText_eq (h : s.Wrote s' text) (hs : s.sinks = [some []]) :
    outputText s'.output = text := by
  obtain ⟨pieces, pieces', hpieces, rfl, htext⟩ := h
  obtain rfl : pieces = [] := by simpa [hs] using hpieces.symm
  rw [Store.output, outputText, ← outputOf, htext]
  exact String.empty_append

end Template.Store

theorem outputOf_cons (piece : Template.Piece) (pieces : List Template.Piece) :
    outputOf (piece :: pieces) = outputOf pieces ++ piece.text := by
  simp [outputOf, String.join]

namespace PassScope.Yields

variable {ω : Type} {p : PassScope ω} {env : Environment} {s : Store} {t : PassState ω}

theorem write {pieces : List Template.Piece} (h : s.sinks = [some pieces])
    (piece : Template.Piece) :
    ∃ s', s.Wrote s' piece.text ∧ p.Yields (Eval.write piece) s t ⟨⟩ s' t := by
  refine ⟨{ s with sinks := [some (piece :: pieces)] },
    ⟨pieces, piece :: pieces, h, rfl, outputOf_cons piece pieces⟩, ?_⟩
  have hwrite : p.Yields (Eval.write piece) s t ⟨⟩ _ t := update _ s t
  simp only [h] at hwrite
  exact hwrite

end PassScope.Yields

end QueryTemplate
