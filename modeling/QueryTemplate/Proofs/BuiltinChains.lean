import QueryTemplate.Proofs.FilterChains
import QueryTemplate.Proofs.FragmentQuery

/-!
Chains of the built-in filters. Query text is made of a value by three of them only; it has no
reserved character then, and no filter behind them changes it. Before that the value has a tag that
it keeps in the template engine, so it does not become query text by accident.
-/

namespace QueryTemplate

/-- Raw text has no reserved character, and the value of a parameter is neither a safe string nor has
a hint of its own. -/
def Classified.IsSound : Classified → Prop
  | raw text => hasReserved text = false
  | parameter value _ => value.isSafe = false ∧ value.isBound = false

theorem Classified.IsSound.isRetagged_eq_false {tag : Classified} (h : tag.IsSound) :
    tag.isRetagged = false := by
  cases tag with
  | raw text => rfl
  | parameter value hint =>
      cases hint with
      | some hint => rfl
      | none =>
          obtain ⟨hsafe, hbound⟩ := h
          simp [isRetagged, hsafe, hbound]

namespace Builtin

/-- The filters that make query text of a value. -/
def inlines (name : String) : Bool :=
  name == "identifier" || name == "sqlsafe" || name == "safe"

/-! ### One filter -/

section Step

variable {scope : FilterScope} {input output : Classified} {args : List Value}

theorem exists_of_mem_quoteAll {quote : Option Char} {segments quoted : List String}
    (h : quoteAll quote segments = .ok quoted) {text : String} (htext : text ∈ quoted) :
    ∃ segment, quoteIdentifier segment quote = .ok text := by
  induction segments generalizing quoted with
  | nil =>
      cases h
      cases htext
  | cons segment segments ih =>
      rw [quoteAll] at h
      split at h
      · cases h
      · rename_i first hfirst
        split at h
        · rename_i rest hrest
          cases h
          rcases List.mem_cons.mp htext with rfl | htext
          · exact ⟨segment, hfirst⟩
          · exact ih hrest htext
        · cases h

theorem clean_intercalate {texts : List String} (h : ∀ text ∈ texts, hasReserved text = false) :
    hasReserved (String.intercalate "." texts) = false := by
  rw [← clean_iff, String.toList_intercalate]
  induction texts with
  | nil => exact clean_nil
  | cons text texts ih =>
      obtain ⟨htext, hrest⟩ := List.forall_mem_cons.mp h
      cases texts with
      | nil =>
          rw [List.map_singleton, List.intercalate_singleton]
          exact clean_iff.mpr htext
      | cons next texts =>
          have hpoint : Clean ".".toList := by decide
          rw [List.map_cons, List.map_cons, List.intercalate_cons_cons]
          exact ((clean_iff.mpr htext).append hpoint).append (ih hrest)

theorem identifier_sound (hquote : ∀ q ∈ scope.identifierQuote, isReserved q = false)
    (hinput : input.IsSound) (h : identifier scope input args = .ok output) : output.IsSound := by
  unfold identifier at h
  split at h
  · cases h
    exact hinput
  · split at h
    · cases h
    · cases h
    · split at h
      · rename_i quoted hquoted
        cases h
        refine clean_intercalate fun text htext => ?_
        obtain ⟨segment, hsegment⟩ := exists_of_mem_quoteAll hquoted htext
        exact hasReserved_of_quoteIdentifier hquote hsegment
      · cases h

theorem inlineText_sound {text : String} (h : inlineText text = .ok output) : output.IsSound := by
  unfold inlineText at h
  split at h
  · cases h
  · rename_i hclean
    cases h
    exact Bool.eq_false_iff.mpr hclean

theorem sqlsafe_sound (hinput : input.IsSound) (h : sqlsafe scope input args = .ok output) :
    output.IsSound := by
  unfold sqlsafe at h
  split at h
  · cases h
    exact hinput
  · split at h
    case h_5 => cases h
    all_goals exact inlineText_sound h

theorem safe_sound (hinput : input.IsSound) (h : safe scope input args = .ok output) :
    output.IsSound := by
  unfold safe at h
  split at h
  · cases h
    exact hinput
  · exact inlineText_sound h

/-- The elements of a list are not looked into, but the list itself is neither raw nor bound. -/
theorem inclause_sound (h : inclause scope input args = .ok output) :
    output.IsSound ∧ output.isRaw = false := by
  unfold inclause at h
  split at h
  · cases h
  · split at h
    · cases h
      exact ⟨⟨rfl, rfl⟩, rfl⟩
    · cases h

theorem bind_eq_ok (h : bind scope input args = .ok output) :
    ∃ name, output = input.withHint name := by
  unfold bind at h
  split at h
  · cases h
    exact ⟨_, rfl⟩
  · cases h

theorem bind_sound (hinput : input.IsSound) (h : bind scope input args = .ok output) :
    output.IsSound ∧ output.isRaw = input.isRaw := by
  obtain ⟨name, rfl⟩ := bind_eq_ok h
  cases input with
  | raw text => exact ⟨hinput, rfl⟩
  | parameter value hint => exact ⟨hinput, rfl⟩

variable {name : String}
  {f : FilterScope → Classified → List Value → Except FilterError Classified}

/-- A filter of a sound tag returns a sound one, and makes query text only if it is one of three. -/
theorem isSound_of_run (hf : run? name = some f)
    (hquote : ∀ q ∈ scope.identifierQuote, isReserved q = false) (hinput : input.IsSound)
    (h : f scope input args = .ok output) :
    output.IsSound ∧ (output.isRaw = true → input.isRaw = true ∨ inlines name = true) := by
  unfold run? at hf
  split at hf <;> cases hf
  case h_1 => exact ⟨identifier_sound hquote hinput h, fun _ => .inr rfl⟩
  case h_2 =>
    obtain ⟨hsound, hraw⟩ := inclause_sound h
    exact ⟨hsound, fun htrue => absurd (hraw.symm.trans htrue) Bool.false_ne_true⟩
  case h_3 =>
    obtain ⟨hsound, hraw⟩ := bind_sound hinput h
    exact ⟨hsound, fun htrue => .inl (hraw.symm.trans htrue)⟩
  case h_4 => exact ⟨sqlsafe_sound hinput h, fun _ => .inr rfl⟩
  case h_5 => exact ⟨safe_sound hinput h, fun _ => .inr rfl⟩

/-- What a filter returns for raw text is the same text. -/
theorem eq_raw_of_run (hf : run? name = some f) {text : String}
    (h : f scope (.raw text) args = .ok output) : output = .raw text := by
  unfold run? at hf
  split at hf <;> cases hf
  case h_1 | h_4 | h_5 =>
    cases h
    rfl
  case h_2 => cases h
  case h_3 =>
    obtain ⟨name, rfl⟩ := bind_eq_ok h
    rfl

end Step

/-! ### Chains -/

/-- Built-in filters applied one after the other: each gets the tag that the template engine carries
for the output of the one before it. -/
inductive Chain (scope : FilterScope) : Classified → List FilterStep → Classified → Prop where
  | nil (tag : Classified) : Chain scope tag [] tag
  | cons {tag output last : Classified} {step : FilterStep} {rest : List FilterStep}
    {f : FilterScope → Classified → List Value → Except FilterError Classified}
    (hf : run? step.name = some f)
    (hrun : f scope (classify tag.toValue) step.args = .ok output)
    (hrest : Chain scope output rest last) : Chain scope tag (step :: rest) last

variable {scope : FilterScope} {tag last : Classified} {steps : List FilterStep}

theorem Chain.isSound (h : Chain scope tag steps last)
    (hquote : ∀ q ∈ scope.identifierQuote, isReserved q = false) (htag : tag.IsSound) :
    last.IsSound ∧ (last.isRaw = true → tag.isRaw = true ∨
      ∃ step ∈ steps, inlines step.name = true) := by
  induction h with
  | nil => exact ⟨htag, .inl⟩
  | @cons tag output last step rest f hf hrun hrest ih =>
      rw [(Classified.classify_toValue_iff tag).mpr htag.isRetagged_eq_false] at hrun
      obtain ⟨houtput, hstep⟩ := isSound_of_run hf hquote htag hrun
      obtain ⟨hlast, hearned⟩ := ih houtput
      refine ⟨hlast, fun hraw => ?_⟩
      rcases hearned hraw with hraw | ⟨later, hlater, hinlines⟩
      · rcases hstep hraw with hraw | hinlines
        · exact .inl hraw
        · exact .inr ⟨step, List.mem_cons_self, hinlines⟩
      · exact .inr ⟨later, List.mem_cons_of_mem _ hlater, hinlines⟩

theorem Chain.eq_of_raw {text : String} (h : Chain scope (.raw text) steps last) :
    last = .raw text := by
  generalize htag : Classified.raw text = tag at h
  induction h with
  | nil => rfl
  | cons hf hrun hrest ih =>
      subst htag
      obtain rfl := eq_raw_of_run hf hrun
      exact ih rfl

end Builtin

/-! ### Chains in a pass -/

/-- The built-in filters are registered under their names. -/
def FilterRegistry.HasBuiltins {ω : Type} (r : FilterRegistry ω) : Prop :=
  ∀ name f, Builtin.run? name = some f → r.resolve name = .ok (.ofFunction f)

theorem FilterRegistry.hasBuiltins_withBuiltins {ω : Type} :
    (withBuiltins : FilterRegistry ω).HasBuiltins := by
  intro name f hf
  unfold Builtin.run? at hf
  split at hf <;> cases hf <;> rfl

namespace PassScope

variable {ω : Type} {p : PassScope ω} {step : FilterStep} {v w : Value} {s t : PassState ω}
  {f : FilterScope → Classified → List Value → Except FilterError Classified}

/-- A pass answers a call of a built-in filter with what the filter returns. -/
theorem call_of_builtin (hp : p.registry.HasBuiltins) (hs : s.isSuspended = false)
    (h : p.Answered step v s) (hf : Builtin.run? step.name = some f) :
    (∀ output, f p.filterScope (classify v) step.args = .ok output →
      ∃ t, p.call step.name v step.args s = (some output.toValue, t) ∧ s.EmitsLike t) ∧
    ∀ e, f p.filterScope (classify v) step.args = .error e →
      ∃ t, p.call step.name v step.args s = (none, t) := by
  obtain ⟨filter, hfilter, hanswer⟩ := call_of_answered hs h
  obtain rfl : Filter.ofFunction f = filter := by
    rw [hp _ _ hf] at hfilter
    exact Except.ok.inj hfilter
  rcases hanswer with ⟨output, t, hreturns, hcall, hlike⟩ | ⟨run, e, t, _, heq, hfails, hcall⟩
  · have hrun : f p.filterScope (classify v) step.args = .ok output := by
      cases hreturns with
      | sync hrun => exact hrun
    constructor
    · intro output' houtput
      obtain rfl := Except.ok.inj (hrun.symm.trans houtput)
      exact ⟨t, hcall, hlike⟩
    · intro e he
      cases hrun.symm.trans he
  · obtain rfl := Filter.sync.inj heq
    constructor
    · intro output houtput
      cases hfails.symm.trans houtput
    · exact fun _ _ => ⟨t, hcall⟩

/-- What comes out of built-in filters in a pass is what comes out of the chain of them. -/
theorem run_applyAll_eq_some_iff (hp : p.registry.HasBuiltins) {tag : Classified}
    {steps : List FilterStep} (hsteps : ∀ step ∈ steps, (Builtin.run? step.name).isSome)
    (hs : s.isSuspended = false) (h : p.AllAnswered steps tag.toValue s) :
    (p.run (.applyAll .done steps tag.toValue) s).1 = some w ↔
      ∃ last, Builtin.Chain p.filterScope tag steps last ∧ w = last.toValue := by
  induction steps generalizing tag s with
  | nil =>
      constructor
      · intro hw
        exact ⟨tag, .nil tag, (Option.some.inj hw).symm⟩
      · rintro ⟨last, hchain, rfl⟩
        cases hchain
        rfl
  | cons step rest ih =>
      obtain ⟨hstep, hrest⟩ := List.forall_mem_cons.mp hsteps
      obtain ⟨f, hf⟩ := Option.isSome_iff_exists.mp hstep
      obtain ⟨hreturns, hfails⟩ := call_of_builtin hp hs h.1 hf
      rw [Template.Program.applyAll, run_call]
      -- The pass and the chain both stop at a filter that fails, and go on with its only output.
      rcases hrun : f p.filterScope (classify tag.toValue) step.args with e | output
      · obtain ⟨t, hcall⟩ := hfails e hrun
        rw [hcall]
        constructor
        · intro hw
          cases hw
        · rintro ⟨last, hchain, -⟩
          cases hchain with
          | cons hf' hrun' _ =>
              obtain rfl := Option.some.inj (hf.symm.trans hf')
              cases hrun.symm.trans hrun'
      · obtain ⟨t, hcall, hlike⟩ := hreturns output hrun
        rw [hcall]
        refine (ih hrest (hlike.isSuspended.trans hs) (h.2 _ t hcall)).trans ?_
        constructor
        · rintro ⟨last, hchain, hw⟩
          exact ⟨last, .cons hf hrun hchain, hw⟩
        · rintro ⟨last, hchain, hw⟩
          cases hchain with
          | cons hf' hrun' hlater =>
              obtain rfl := Option.some.inj (hf.symm.trans hf')
              obtain rfl := Except.ok.inj (hrun.symm.trans hrun')
              exact ⟨last, hlater, hw⟩

end PassScope

/-- Query text is earned, clean and stays as it is along a chain of built-in filters. A value that is
neither a safe string nor has a hint of its own becomes raw only behind a filter that makes query
text; raw text has no reserved character and is what every later filter returns that does not fail;
and the tag of what a filter returns is always the one that the template engine carries. The chains
are those that a pass applies. -/
theorem chain_raw {ω : Type} (scope : FilterScope)
    (hquote : ∀ q ∈ scope.identifierQuote, isReserved q = false) {v : Value}
    (hsafe : v.isSafe = false) (hbound : v.isBound = false) :
    (∀ steps tag, Builtin.Chain scope (classify v) steps tag →
      (tag.isRaw = true → ∃ step ∈ steps, Builtin.inlines step.name = true) ∧
      (∀ text, tag = .raw text → hasReserved text = false ∧
        ∀ later last, Builtin.Chain scope tag later last → last = .raw text) ∧
      (∀ value, tag = .parameter value none → value.isSafe = false ∧ value.isBound = false) ∧
      classify tag.toValue = tag) ∧
    ∀ (p : PassScope ω) (steps : List FilterStep) (s : PassState ω), p.filterScope = scope →
      p.registry.HasBuiltins → (∀ step ∈ steps, (Builtin.run? step.name).isSome) →
      s.isSuspended = false → p.AllAnswered steps v s → ∀ w,
        (p.run (.applyAll .done steps v) s).1 = some w ↔
          ∃ tag, Builtin.Chain scope (classify v) steps tag ∧ w = tag.toValue := by
  have hclassify : classify v = .parameter v none := by
    cases v with
    | safe text => cases hsafe
    | bound value hint => cases hbound
    | _ => rfl
  have hsound : (classify v).IsSound := by
    rw [hclassify]
    exact ⟨hsafe, hbound⟩
  constructor
  · intro steps tag hchain
    obtain ⟨htag, hearned⟩ := hchain.isSound hquote hsound
    refine ⟨fun hraw => (hearned hraw).resolve_left ?_, ?_, ?_,
      (Classified.classify_toValue_iff tag).mpr htag.isRetagged_eq_false⟩
    · simp [hclassify, Classified.isRaw]
    · rintro text rfl
      exact ⟨htag, fun later last hlater => hlater.eq_of_raw⟩
    · rintro value rfl
      exact htag
  · rintro p steps s rfl hp hsteps hs hanswers w
    have hanswers : p.AllAnswered steps (classify v).toValue s := by rwa [toValue_classify]
    have hrun := PassScope.run_applyAll_eq_some_iff (w := w) hp hsteps hs hanswers
    rwa [toValue_classify] at hrun

/-- A list of names becomes one quoted name, which `sqlsafe` leaves as it is, and so it comes out of
a sequential pass. -/
theorem chain_raw_identifier :
    let p : PassScope Unit :=
      { registry := .withBuiltins, context := {}, options := {}, mode := .sequential }
    let v : Value := .list [.str "public", .str "users"]
    let steps : List FilterStep := [⟨"bind", [.str "t"]⟩, ⟨"identifier", []⟩, ⟨"sqlsafe", []⟩]
    Builtin.Chain p.filterScope (classify v) steps (.raw "\"public\".\"users\"") ∧
      hasReserved "\"public\".\"users\"" = false ∧
      (p.run (.applyAll .done steps v) { world := () }).1 = some (.safe "\"public\".\"users\"") := by
  intro p v steps
  have hchain : Builtin.Chain p.filterScope (classify v) steps (.raw "\"public\".\"users\"") :=
    .cons (f := Builtin.bind) rfl rfl <| .cons (f := Builtin.identifier) rfl rfl <|
      .cons (f := Builtin.sqlsafe) rfl rfl <| .nil _
  have hbuiltin : ∀ step ∈ steps, (Builtin.run? step.name).isSome := by decide
  have hanswers : p.AllAnswered steps v { world := () } :=
    PassScope.allAnswered_sequential rfl (fun step hstep => by
      obtain ⟨f, hf⟩ := Option.isSome_iff_exists.mp (hbuiltin step hstep)
      exact ⟨_, FilterRegistry.hasBuiltins_withBuiltins _ f hf⟩) v _
  have hquote : ∀ q ∈ p.filterScope.identifierQuote, isReserved q = false := by
    rintro q ⟨⟩
    rfl
  obtain ⟨htags, hpasses⟩ := chain_raw (ω := Unit) p.filterScope hquote (v := v) rfl rfl
  exact ⟨hchain, ((htags steps _ hchain).2.1 _ rfl).1,
    (hpasses p steps _ rfl FilterRegistry.hasBuiltins_withBuiltins hbuiltin rfl hanswers _).mpr
      ⟨_, hchain, rfl⟩⟩

end QueryTemplate
