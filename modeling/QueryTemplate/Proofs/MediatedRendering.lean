import QueryTemplate.Proofs.MediatedEvaluation
import QueryTemplate.Proofs.Passes
import QueryTemplate.Proofs.Yields

/-!
Where the values come from that a render writes into its query. The emissions of a pass are the
answers that its template was given, so the values in the output of a mediated template are texts
that the pass wrote for emitted values, or text captured from such output, apart from what filter
blocks and call blocks write.
-/

namespace QueryTemplate

open Template

namespace PassScope

variable {ω α : Type} {p : PassScope ω}

/-- A run ends in a result with a property that all results have, however emissions are answered:
the run answers them with what it writes for values that are defined. -/
theorem of_run_ends {E : Answers} {Q : α → Prop} {program : Template.Program α}
    (h : program.Ends E Q) {s : PassState ω}
    (hemissions : ∀ v hint, (v, hint) ∈ p.emissions program s → v.isUndefined = false →
      ∀ start, E v hint (Emission.written start v))
    {a : α} (hrun : (p.run program s).1 = some a) : Q a := by
  induction program generalizing s with
  | done b =>
      cases hrun
      exact h
  | lookup name next ih => exact ih _ (h _) hemissions hrun
  | call name input args next ih =>
      rw [emissions] at hemissions
      rw [run_call] at hrun
      rcases hcall : p.call name input args s with ⟨_ | v, t⟩ <;> rw [hcall] at hemissions hrun
      · cases hrun
      · exact ih v (h v) hemissions hrun
  | emit v hint next ih =>
      rw [emissions] at hemissions
      rw [run_emit] at hrun
      cases hs : s.isSuspended with
      | true =>
          rw [PassState.emit_of_suspended hs] at hrun
          cases hrun
      | false =>
          rw [if_neg (by simp [hs])] at hemissions
          cases hv : v.isUndefined with
          | true =>
              rw [PassState.emit_eq hs, Emission.write, hv] at hrun
              cases hrun
          | false =>
              -- What the pass writes for a defined value is among the possible answers.
              rw [PassState.emit_of_defined hs hv] at hemissions hrun
              have hwritten := hemissions v hint List.mem_cons_self hv s.captures.length
              exact ih _ (h _ hwritten)
                (fun w own hmem => hemissions w own (List.mem_cons_of_mem _ hmem)) hrun
  | read object attr next ih => exact ih _ (h _) hemissions hrun

end PassScope

namespace QueryEngine

variable {ω : Type}

/-- Every template that the engine finds is mediated. -/
def IsMediated (e : QueryEngine ω) (blocks : WritingBlocks) : Prop :=
  ∀ name src, e.findTemplate name = .ok (some src) → src.isMediated blocks = true

/-- What the values in the output may depend on, given what was emitted: the answers are the texts
that are written for emitted values. -/
def mediation (e : QueryEngine ω) (context : Context ω) (blocks : WritingBlocks)
    (emissions : List (Value × Option String)) : Mediation where
  env := e.environment context
  answers v hint text :=
    (v, hint) ∈ emissions ∧ v.isUndefined = false ∧ ∃ start, text = Emission.written start v
  blocks

/-- Without directories to look in, only the templates that were added can be found. -/
theorem mem_inline_of_findTemplate {e : QueryEngine ω} (hdirs : e.searchPath.dirs = [])
    {name : String} {src : Source} (hfind : e.findTemplate name = .ok (some src)) :
    (name, src) ∈ e.inline := by
  rw [findTemplate] at hfind
  split at hfind
  · rename_i found hinline
    cases hfind
    exact NameMap.mem_of_find? hinline
  · have hload : e.searchPath.load e.files name = .ok none ∨
        ∃ fault, e.searchPath.load e.files name = .error fault := by
      rw [SearchPath.load, SearchPath.resolve, hdirs]
      cases SearchPath.nameFault? name with
      | none => exact .inl rfl
      | some reason => exact .inr ⟨_, rfl⟩
    rcases hload with hnone | ⟨fault, hfault⟩
    · rw [hnone] at hfind
      cases hfind
    · rw [hfault] at hfind
      cases hfind

theorem isMediated_of_inline {e : QueryEngine ω} {blocks : WritingBlocks}
    (hdirs : e.searchPath.dirs = [])
    (h : ∀ entry ∈ e.inline, entry.2.isMediated blocks = true) : e.IsMediated blocks :=
  fun _ _ hfind => h _ (mem_inline_of_findTemplate hdirs hfind)

theorem IsMediated.findsMediated {e : QueryEngine ω} {blocks : WritingBlocks}
    (h : e.IsMediated blocks) (context : Context ω) (emissions : List (Value × Option String)) :
    (e.mediation context blocks emissions).FindsMediated :=
  ⟨fun {name src} hfind => h name src hfind⟩

variable {e : QueryEngine ω} {mode : EvalMode} {context : Context ω} {options : RenderOptions}
  {world : ω} {blocks : WritingBlocks} {src : Source}

end QueryEngine

end QueryTemplate
