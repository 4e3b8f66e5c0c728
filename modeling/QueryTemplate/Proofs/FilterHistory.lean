import QueryTemplate.Proofs.FilterDispatch

/-!
The filters of an engine after any number of changes to it. The log of the changes says what each name
stands for: the filter of its last registration, a filter that was removed, or none that was ever
registered. The registry and the names that templates look up there are two tables, which are not
changed by the same operations and never shrink together; both agree with the log.
-/

namespace QueryTemplate

open Template Template.Eval

variable {ω : Type}

/-- A call that may change an engine. -/
inductive EngineChange (ω : Type) where
  | register (name : String) (filter : Filter ω)
  | unregister (name : String)
  | addTemplate (name source : String)
  | addSearchPath (dir : String)

namespace QueryEngine

/-- The engine after a call that may fail, and whether it did not. -/
def orKeep (e : QueryEngine ω) (result : Except QueryError (QueryEngine ω)) :
    Bool × QueryEngine ω :=
  match result with
  | .ok e' => (true, e')
  | .error _ => (false, e)

/-- Makes a change and tells whether there was anything to change. -/
def apply (e : QueryEngine ω) : EngineChange ω → Bool × QueryEngine ω
  | .register name filter => e.orKeep (e.register name filter)
  | .unregister name => e.unregister name
  | .addTemplate name source => e.orKeep (e.addTemplate name source)
  | .addSearchPath dir => e.orKeep (e.addSearchPath dir)

/-- Makes the changes in order, and keeps a log of which of them came about. -/
def applyAll (e : QueryEngine ω) :
    List (EngineChange ω) → List (EngineChange ω × Bool) × QueryEngine ω
  | [] => ([], e)
  | change :: rest =>
    let (done, e) := e.apply change
    let (log, e) := e.applyAll rest
    ((change, done) :: log, e)

end QueryEngine

namespace FilterRegistry

theorem names_withBuiltins : (withBuiltins : FilterRegistry ω).names =
    ["bind", "identifier", "inclause", "safe", "sqlsafe"] := rfl

theorem sorted_withBuiltins : (withBuiltins : FilterRegistry ω).filters.Sorted := by
  have hnames : (withBuiltins : FilterRegistry ω).names.Pairwise (· < ·) := by
    rw [names_withBuiltins]
    decide
  exact List.pairwise_map.mp hnames

theorem not_reserved_of_mem_withBuiltins {name : String}
    (h : name ∈ (withBuiltins : FilterRegistry ω).names) : isReservedName name = false := by
  have hnames : ∀ name ∈ ["bind", "identifier", "inclause", "safe", "sqlsafe"],
      isReservedName name = false := by decide
  exact hnames name (names_withBuiltins (ω := ω) ▸ h)

end FilterRegistry

/-- What a name stands for. -/
inductive FilterStanding (ω : Type) where
  /-- No filter was ever registered under the name. -/
  | never
  /-- The filter of the last registration under the name. -/
  | active (filter : Filter ω)
  /-- The name had a filter, and it was removed. -/
  | removed

namespace FilterStanding

def filter? : FilterStanding ω → Option (Filter ω)
  | active filter => some filter
  | _ => none

/-- What a name stands for in a new engine. -/
def initial (name : String) : FilterStanding ω :=
  match (FilterRegistry.withBuiltins : FilterRegistry ω).filters.find? name with
  | some filter => active filter
  | none => never

/-- What a name stands for after an entry of the log. -/
def after (name : String) (standing : FilterStanding ω) :
    EngineChange ω × Bool → FilterStanding ω
  | (.register other filter, true) => if other = name then active filter else standing
  | (.unregister other, true) => if other = name then removed else standing
  | _ => standing

/-- What a name stands for at the end of a log. -/
def ofLog (name : String) (log : List (EngineChange ω × Bool)) : FilterStanding ω :=
  log.foldl (after name) (initial name)

theorem filter?_initial (name : String) : (initial (ω := ω) name).filter? =
    (FilterRegistry.withBuiltins : FilterRegistry ω).filters.find? name := by
  rw [initial]
  split
  · rename_i filter hfind
    exact hfind.symm
  · rename_i hfind
    exact hfind.symm

theorem initial_ne_never_iff (name : String) : initial (ω := ω) name ≠ never ↔
    name ∈ (FilterRegistry.withBuiltins : FilterRegistry ω).names := by
  rw [FilterRegistry.names, NameMap.mem_names_iff, initial]
  split
  · rename_i filter hfind
    simp [hfind]
  · rename_i hfind
    simp [hfind]

end FilterStanding

namespace QueryEngine

/-! ### The two tables -/

/-- The tables of an engine agree with what each name stands for. -/
structure Reflects (e : QueryEngine ω) (standing : String → FilterStanding ω) : Prop where
  /-- A removal takes out one entry, so there must not be two of a name. -/
  sorted : e.registry.filters.Sorted
  find? : ∀ name, e.registry.filters.find? name = (standing name).filter?
  dispatched : ∀ name, name ∈ e.dispatched ↔ standing name ≠ .never
  reserved : ∀ name, isReservedName name = true → standing name = .never

variable {e e' : QueryEngine ω} {standing : String → FilterStanding ω}

/-- The engine with a filter in both tables. -/
def withFilter (e : QueryEngine ω) (name : String) (filter : Filter ω) : QueryEngine ω :=
  { e with
    registry := { e.registry with filters := e.registry.filters.insert name filter }
    dispatched := if e.dispatched.contains name then e.dispatched else e.dispatched ++ [name] }

/-- The engine without a filter. Its name stays one that is looked up in the registry. -/
def withoutFilter (e : QueryEngine ω) (name : String) : QueryEngine ω :=
  { e with registry := { e.registry with filters := e.registry.filters.erase name } }

/-- A name that a filter can be registered under: not a reserved one, and one that is free unless
overrides are allowed. -/
def Accepts (e : QueryEngine ω) (name : String) : Prop :=
  isReservedName name = false ∧
    (e.registry.allowOverride = true ∨ e.registry.filters.find? name = none)

theorem mem_dispatched_withFilter {name other : String} {filter : Filter ω} :
    other ∈ (e.withFilter name filter).dispatched ↔ other = name ∨ other ∈ e.dispatched := by
  rw [withFilter]
  by_cases h : name ∈ e.dispatched
  · rw [if_pos (by simpa using h)]
    exact ⟨.inr, fun hother => hother.elim (fun heq => heq ▸ h) id⟩
  · rw [if_neg (by simpa using h), List.mem_append, List.mem_singleton, or_comm]

/-! ### What each change does -/

theorem apply_register {name : String} (h : e.Accepts name) (filter : Filter ω) :
    e.apply (.register name filter) = (true, e.withFilter name filter) := by
  obtain ⟨hname, hfree⟩ := h
  have hregister : e.registry.register name filter =
      .ok { e.registry with filters := e.registry.filters.insert name filter } := by
    rw [FilterRegistry.register, if_neg (by simp [hname]), if_neg]
    rcases hfree with hallowed | hfree
    · simp [hallowed]
    · simp [FilterRegistry.contains, NameMap.contains, hfree]
  rw [apply, register, hregister]
  rfl

/-- A registration that fails changes nothing. -/
theorem apply_register_of_not {name : String} (h : ¬e.Accepts name) (filter : Filter ω) :
    e.apply (.register name filter) = (false, e) := by
  rw [apply, register, FilterRegistry.register]
  by_cases hname : isReservedName name = true
  · rw [if_pos hname]
    rfl
  · have htaken : (!e.registry.allowOverride && e.registry.contains name) = true := by
      simpa [Accepts, hname, FilterRegistry.contains, NameMap.contains,
        Option.isSome_iff_ne_none] using h
    rw [if_neg hname, if_pos htaken]
    rfl

theorem apply_addTemplate (e : QueryEngine ω) (name source : String) :
    ∃ done inline, e.apply (.addTemplate name source) = (done, { e with inline }) := by
  rw [apply]
  cases hadd : e.addTemplate name source with
  | error fault => exact ⟨false, e.inline, rfl⟩
  | ok e' =>
      rw [addTemplate] at hadd
      split at hadd
      · contradiction
      · split at hadd
        · contradiction
        · cases hadd
          exact ⟨true, _, rfl⟩

theorem apply_addSearchPath (e : QueryEngine ω) (dir : String) :
    ∃ done searchPath config,
      e.apply (.addSearchPath dir) = (done, { e with searchPath, config }) := by
  rw [apply, addSearchPath]
  cases e.searchPath.addDir e.files dir with
  | error fault => exact ⟨false, e.searchPath, e.config, rfl⟩
  | ok path => exact ⟨true, path, _, rfl⟩

/-- A filter gets into both tables, or one gets out of the registry, or both tables and what each
name stands for stay the same. -/
theorem apply_cases (e : QueryEngine ω) (change : EngineChange ω) :
    (∃ name filter, change = .register name filter ∧ e.Accepts name ∧
      e.apply change = (true, e.withFilter name filter)) ∨
    (∃ name, change = .unregister name ∧
      e.apply change = ((e.registry.filters.find? name).isSome, e.withoutFilter name)) ∨
    ((e.apply change).2.registry = e.registry ∧ (e.apply change).2.dispatched = e.dispatched ∧
      ∀ name standing, FilterStanding.after name standing (change, (e.apply change).1) = standing) := by
  cases change with
  | register name filter =>
      by_cases h : e.Accepts name
      · exact .inl ⟨name, filter, rfl, h, apply_register h filter⟩
      · rw [apply_register_of_not h]
        exact .inr (.inr ⟨rfl, rfl, fun _ _ => rfl⟩)
  | unregister name => exact .inr (.inl ⟨name, rfl, rfl⟩)
  | addTemplate name source =>
      obtain ⟨done, inline, h⟩ := e.apply_addTemplate name source
      rw [h]
      exact .inr (.inr ⟨rfl, rfl, fun _ _ => rfl⟩)
  | addSearchPath dir =>
      obtain ⟨done, searchPath, config, h⟩ := e.apply_addSearchPath dir
      rw [h]
      exact .inr (.inr ⟨rfl, rfl, fun _ _ => rfl⟩)

/-- Overrides are allowed or not from the beginning. -/
theorem apply_allowOverride (e : QueryEngine ω) (change : EngineChange ω) :
    (e.apply change).2.registry.allowOverride = e.registry.allowOverride := by
  rcases e.apply_cases change with ⟨name, filter, -, -, h⟩ | ⟨name, -, h⟩ | ⟨h, -, -⟩
  · rw [h]
    rfl
  · rw [h]
    rfl
  · rw [h]

/-! ### The tables along a history -/

namespace Reflects

theorem withFilter (h : e.Reflects standing) {name : String} (hname : isReservedName name = false)
    (filter : Filter ω) :
    (e.withFilter name filter).Reflects fun other =>
      if name = other then .active filter else standing other where
  sorted := h.sorted.insert name filter
  find? other := by
    show NameMap.find? other (e.registry.filters.insert name filter) = _
    by_cases heq : name = other
    · rw [if_pos heq, ← heq, NameMap.find?_insert_self]
      rfl
    · rw [if_neg heq, NameMap.find?_insert_of_ne (Ne.symm heq), h.find?]
  dispatched other := by
    rw [mem_dispatched_withFilter, h.dispatched]
    by_cases heq : name = other
    · simp [heq]
    · simp [heq, Ne.symm heq]
  reserved other hother := by
    have hne : name ≠ other := by
      rintro rfl
      rw [hname] at hother
      contradiction
    rw [if_neg hne, h.reserved other hother]

/-- The name of a filter that is removed keeps its place among the names that are looked up. -/
theorem withoutFilter (h : e.Reflects standing) (name : String) :
    (e.withoutFilter name).Reflects fun other =>
      if name = other ∧ (e.registry.filters.find? name).isSome then .removed
      else standing other where
  sorted := h.sorted.erase name
  find? other := by
    show NameMap.find? other (e.registry.filters.erase name) = _
    by_cases heq : name = other
    · subst heq
      rw [NameMap.find?_erase_self name h.sorted]
      cases hfind : e.registry.filters.find? name with
      | none => simp [← h.find?, hfind]
      | some filter => simp [FilterStanding.filter?]
    · rw [if_neg (fun hboth => heq hboth.1), NameMap.find?_erase_of_ne (Ne.symm heq), h.find?]
  dispatched other := by
    show other ∈ e.dispatched ↔ _
    rw [h.dispatched]
    split
    · rename_i hboth
      obtain ⟨rfl, hfound⟩ := hboth
      -- a name without any registration has no filter to remove
      rw [h.find?] at hfound
      cases hstanding : standing name with
      | never => simp [hstanding, FilterStanding.filter?] at hfound
      | active filter => simp
      | removed => simp
    · rfl
  reserved other hother := by
    have hnever := h.reserved other hother
    rw [if_neg, hnever]
    rintro ⟨rfl, hfound⟩
    simp [h.find?, hnever, FilterStanding.filter?] at hfound

/-- The tables keep agreeing with the log when it gets one entry more. -/
theorem apply (h : e.Reflects standing) (change : EngineChange ω) :
    (e.apply change).2.Reflects fun name =>
      (standing name).after name (change, (e.apply change).1) := by
  rcases e.apply_cases change with
    ⟨name, filter, rfl, haccepts, happly⟩ | ⟨name, rfl, happly⟩ | ⟨hregistry, hdispatched, hsame⟩
  · rw [happly]
    exact h.withFilter haccepts.1 filter
  · have hwithout := h.withoutFilter name
    rw [happly]
    cases hfound : (e.registry.filters.find? name).isSome with
    | true =>
        simp only [hfound, and_true] at hwithout
        exact hwithout
    | false =>
        simp only [hfound, Bool.false_eq_true, and_false, if_false] at hwithout
        exact hwithout
  · simp only [hsame]
    exact ⟨hregistry ▸ h.sorted, hregistry ▸ h.find?, hdispatched ▸ h.dispatched, h.reserved⟩

theorem applyAll (h : e.Reflects standing) (history : List (EngineChange ω)) :
    (e.applyAll history).2.Reflects fun name =>
      (e.applyAll history).1.foldl (FilterStanding.after name) (standing name) := by
  induction history generalizing e standing with
  | nil => exact h
  | cons change rest ih => exact ih (h.apply change)

end Reflects

theorem applyAll_append (e : QueryEngine ω) (earlier later : List (EngineChange ω)) :
    (e.applyAll (earlier ++ later)).2 = ((e.applyAll earlier).2.applyAll later).2 := by
  induction earlier generalizing e with
  | nil => rfl
  | cons change rest ih => exact ih _

theorem applyAll_allowOverride (e : QueryEngine ω) (history : List (EngineChange ω)) :
    (e.applyAll history).2.registry.allowOverride = e.registry.allowOverride := by
  induction history generalizing e with
  | nil => rfl
  | cons change rest ih => exact (ih _).trans (apply_allowOverride e change)

/-- Without overrides, a filter is changed by removing it only. -/
theorem find?_apply_of_ne {name : String} {filter : Filter ω}
    (hoverride : e.registry.allowOverride = false)
    (hfind : e.registry.filters.find? name = some filter) {change : EngineChange ω}
    (hchange : change ≠ .unregister name) :
    (e.apply change).2.registry.filters.find? name = some filter := by
  rcases e.apply_cases change with
    ⟨other, filter', rfl, ⟨-, hfree⟩, happly⟩ | ⟨other, rfl, happly⟩ | ⟨hregistry, -, -⟩
  · have hne : name ≠ other := by
      rintro rfl
      simp [hoverride, hfind] at hfree
    rw [happly]
    exact (NameMap.find?_insert_of_ne hne _ _).trans hfind
  · have hne : name ≠ other := fun heq => hchange (heq ▸ rfl)
    rw [happly]
    exact (NameMap.find?_erase_of_ne hne _).trans hfind
  · rw [hregistry, hfind]

theorem find?_applyAll_of_not_mem {name : String} {filter : Filter ω}
    (hoverride : e.registry.allowOverride = false)
    (hfind : e.registry.filters.find? name = some filter) {history : List (EngineChange ω)}
    (hhistory : .unregister name ∉ history) :
    (e.applyAll history).2.registry.filters.find? name = some filter := by
  induction history generalizing e with
  | nil => exact hfind
  | cons change rest ih =>
      obtain ⟨hchange, hrest⟩ := not_or.mp (List.mem_cons.not.mp hhistory)
      have hoverride' := (apply_allowOverride e change).trans hoverride
      exact ih hoverride' (find?_apply_of_ne hoverride hfind (Ne.symm hchange)) hrest

/-! ### New engines -/

theorem withConfig_eq_ok {files : FileTree} {config : EngineConfig}
    (h : withConfig files config = .ok e) :
    e.registry = { FilterRegistry.withBuiltins with allowOverride := config.allowFilterOverride } ∧
      e.dispatched = (FilterRegistry.withBuiltins : FilterRegistry ω).names := by
  rw [withConfig] at h
  split at h
  · contradiction
  · cases h
    exact ⟨rfl, rfl⟩

theorem withConfig_reflects {files : FileTree} {config : EngineConfig}
    (h : withConfig files config = .ok e) : e.Reflects FilterStanding.initial := by
  obtain ⟨hregistry, hdispatched⟩ := withConfig_eq_ok h
  refine ⟨?_, fun name => ?_, fun name => ?_, fun name hname => ?_⟩
  · rw [hregistry]
    exact FilterRegistry.sorted_withBuiltins
  · rw [hregistry, FilterStanding.filter?_initial]
  · rw [hdispatched, FilterStanding.initial_ne_never_iff]
  · by_contra hstanding
    have hmem := (FilterStanding.initial_ne_never_iff name).mp hstanding
    rw [FilterRegistry.not_reserved_of_mem_withBuiltins hmem] at hname
    contradiction

/-! ### What templates apply -/

/-- Wherever a template of the engine names the filter, what the name stands for is applied to the
value and the arguments that are evaluated there: a filter the engine has of its own, the registered
one, or, if that was removed, none, and then the pass fails. -/
def AppliesBy (e : QueryEngine ω) (name : String) (standing : FilterStanding ω) : Prop :=
  ∀ (context : Context ω) (use : FilterUse),
    let env := e.environment context
    match standing with
    | .never => use.evaluate env name = use.handing env (applyOwn env name)
    | .active filter =>
      ∀ (p : PassScope ω) (s : Store) (t : PassState ω), p.registry = e.registry →
        p.runEval (use.evaluate env name) s t =
          PassScope.thenCall (p.callResolved name (some filter))
            (p.runEval (use.handing env (handOver env)) s t)
    | .removed =>
      ∀ (p : PassScope ω) (s : Store) (t : PassState ω), p.registry = e.registry →
        p.runEval (use.evaluate env name) s t =
            PassScope.thenCall (p.callResolved name none)
              (p.runEval (use.handing env (handOver env)) s t) ∧
          ∀ handed s' t', p.Yields (use.handing env (handOver env)) s t handed s' t' →
            t'.isSuspended = false → t'.failure = none → ∀ rest,
              (p.outcome (Program.bind (use.evaluate env name s) rest) t).1 =
                .failed (.unknownFilter name)

theorem Reflects.appliesBy (h : e.Reflects standing) (name : String) :
    e.AppliesBy name (standing name) := by
  have hdispatched (hstanding : standing name ≠ .never) :
      name ≠ emitName ∧ name ∈ e.dispatched := by
    refine ⟨?_, (h.dispatched name).mpr hstanding⟩
    rintro rfl
    exact hstanding (h.reserved emitName rfl)
  have hfind := h.find? name
  intro context use env
  cases hstanding : standing name with
  | never =>
      have hnot : name ∉ e.dispatched := fun hmem => (h.dispatched name).mp hmem hstanding
      exact evaluate_own hnot context use
  | active filter =>
      obtain ⟨hemit, hmem⟩ := hdispatched (by simp [hstanding])
      rw [hstanding] at hfind
      intro p s t hp
      rw [runEval_dispatched hemit hmem context use hp, hfind]
      rfl
  | removed =>
      -- All goes as with the filter up to the call, which finds none.
      obtain ⟨hemit, hmem⟩ := hdispatched (by simp [hstanding])
      rw [hstanding] at hfind
      intro p s t hp
      have hrun := runEval_dispatched hemit hmem context use hp s t
      rw [hfind] at hrun
      refine ⟨hrun, fun handed s' t' hyields hrunning hfirst rest => ?_⟩
      refine PassScope.outcome_of_fail (hrun.trans ?_) hrunning hfirst rest
      have hhanded : p.runEval (use.handing env (handOver env)) s t =
          (some (.ok (handed, s')), t') := hyields
      rw [hhanded]
      simp only [PassScope.thenCall, FilterStanding.filter?, PassScope.callResolved_none hrunning]

/-- What a name stands for decides what there is under it. -/
structure Resolves (e : QueryEngine ω) (name : String) (standing : FilterStanding ω) : Prop where
  /-- A reserved name is in neither table. -/
  reserved : isReservedName name = true → e.registry.contains name = false ∧ name ∉ e.dispatched
  /-- The emit filter is never replaced. -/
  emit : ∀ (context : Context ω) (use : FilterUse),
    use.evaluate (e.environment context) emitName =
      use.handing (e.environment context) (emitFilter (e.environment context))
  /-- A registered name is looked up in the registry. -/
  dispatched : e.registry.contains name = true → name ∈ e.dispatched
  registered : e.registry.filters.find? name = standing.filter?
  applied : e.AppliesBy name standing

theorem Reflects.resolves (h : e.Reflects standing) (name : String) :
    e.Resolves name (standing name) where
  reserved hname := by
    have hnever := h.reserved name hname
    have hfind := h.find? name
    rw [hnever] at hfind
    refine ⟨?_, fun hmem => (h.dispatched name).mp hmem hnever⟩
    rw [FilterRegistry.contains, NameMap.contains, hfind]
    rfl
  emit context use := by
    have hnot : emitName ∉ e.dispatched := fun hmem =>
      (h.dispatched emitName).mp hmem (h.reserved emitName rfl)
    rw [evaluate_own hnot, applyOwn_emit]
  dispatched hcontains := by
    rw [h.dispatched]
    intro hnever
    rw [FilterRegistry.contains, NameMap.contains, h.find?, hnever] at hcontains
    contradiction
  registered := h.find? name
  applied := h.appliesBy name

theorem exists_register_iff {name : String} {filter : Filter ω} :
    (∃ e', e.register name filter = .ok e') ↔ e.Accepts name := by
  constructor
  · rintro ⟨e', hregister⟩
    by_contra hnot
    have happly := apply_register_of_not hnot filter
    rw [apply, hregister] at happly
    cases happly
  · intro haccepts
    have happly := apply_register haccepts filter
    rw [apply] at happly
    cases hregister : e.register name filter with
    | error fault =>
        rw [hregister] at happly
        cases happly
    | ok e' => exact ⟨e', rfl⟩

/-- The filters of an engine after any history of changes, for every name. The log says what the
name stands for, and the tables and the templates agree with it. Without overrides, a filter stays
until it is removed. A registration succeeds unless the name is reserved or taken, and otherwise it
leaves the engine as it is. -/
theorem filters_of_history {files : FileTree} {config : EngineConfig} {new : QueryEngine ω}
    (h : withConfig files config = .ok new) (history : List (EngineChange ω)) (name : String) :
    let (log, e) := new.applyAll history
    let standing := FilterStanding.ofLog name log
    e.Resolves name standing ∧
      (config.allowFilterOverride = false → ∀ earlier later filter, history = earlier ++ later →
        (new.applyAll earlier).2.registry.filters.find? name = some filter →
          .unregister name ∉ later → e.registry.filters.find? name = some filter) ∧
      ∀ filter,
        ((∃ e', e.register name filter = .ok e') ↔ isReservedName name = false ∧
          (config.allowFilterOverride = true ∨ standing.filter? = none)) ∧
        ∀ fault, e.register name filter = .error fault →
          e.apply (.register name filter) = (false, e) := by
  have hnew : new.registry.allowOverride = config.allowFilterOverride := by
    rw [(withConfig_eq_ok h).1]
  have hreflects := (withConfig_reflects h).applyAll history
  refine ⟨hreflects.resolves name, ?_, fun filter => ⟨?_, fun fault hfault => ?_⟩⟩
  · rintro hoverride earlier later filter rfl hfind hlater
    rw [applyAll_append]
    exact find?_applyAll_of_not_mem
      ((applyAll_allowOverride new earlier).trans (hnew.trans hoverride)) hfind hlater
  · rw [exists_register_iff, Accepts, applyAll_allowOverride, hnew, hreflects.find?]
    rfl
  · rw [apply, hfault]
    rfl

/-- Without overrides: a second registration fails, and a built-in filter that is removed is gone. -/
theorem filters_of_history_taken :
    let config : EngineConfig := { allowFilterOverride := false }
    let new : QueryEngine Unit :=
      { (QueryEngine.new default : QueryEngine Unit) with
        config, registry := { FilterRegistry.withBuiltins with allowOverride := false } }
    let write (text : String) : Filter Unit := .ofFunction fun _ _ _ => .ok (.raw text)
    let history : List (EngineChange Unit) :=
      [.register "upper" (write "first"), .register "upper" (write "second"), .unregister "safe"]
    let e := (new.applyAll history).2
    let rendered (source : String) : Except QueryError String :=
      (e.renderText .sequential source (Context.empty.insert "x" (.str "a")) {} ()).1.map (·.query)
    withConfig default config = .ok new ∧
      e.Resolves "upper" (.active (write "first")) ∧ e.Resolves "safe" .removed ∧
      e.registry.filters.find? "upper" = some (write "first") ∧
      rendered "{{ x | upper }}" = .ok "first" ∧
      rendered "{{ x | safe }}" = .error (.unknownFilter "safe") ∧
      rendered "{{ x | lower }}" = .ok ":x" := by
  intro config new write history e rendered
  have h : withConfig default config = .ok new := rfl
  refine ⟨h, (filters_of_history h history "upper").1, (filters_of_history h history "safe").1,
    ?_, ?_, ?_, ?_⟩
  · exact (filters_of_history h history "upper").2.1 rfl [.register "upper" (write "first")]
      [.register "upper" (write "second"), .unregister "safe"] (write "first") rfl rfl (by simp)
  · decide +kernel
  · decide +kernel
  · decide +kernel

end QueryEngine

end QueryTemplate
