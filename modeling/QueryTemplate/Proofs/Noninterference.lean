import Mathlib.Data.List.Forall2
import QueryTemplate.Proofs.Emission
import QueryTemplate.Proofs.Formatting

/-!
Two runs with different values in the same places. What is emitted does not depend on the values
that are bound, and neither does the query that is made of it: text, keys and errors are the same
in both runs.
-/

namespace QueryTemplate

namespace Value

/-- The value is bound as it is, with the hint of the expression it comes from. -/
def isPlain : Value → Bool
  | undefined => false
  | absent => false
  | safe _ => false
  | bound .. => false
  | params _ => false
  | _ => true

/-- Values that differ only in what is bound. -/
inductive Alike : Value → Value → Prop
  | raw (text : String) : Alike (.safe text) (.safe text)
  | plain {v v' : Value} (h : v.isPlain = true) (h' : v'.isPlain = true) : Alike v v'
  | bound (v v' : Value) (hint : String) : Alike (.bound v hint) (.bound v' hint)
  | params {items items' : List Value} (h : items.length = items'.length) :
      Alike (.params items) (.params items')

end Value

/-- The hints of the captured values, which formatting makes keys of. -/
def CaptureList.hints (c : CaptureList) : List (Option String) :=
  c.entries.map (·.hint)

theorem CaptureList.hints_extend (c : CaptureList) (bound : List (Option String × Value)) :
    (c.extend bound).hints = c.hints ++ bound.map (·.1) := by
  induction bound generalizing c with
  | nil => simp
  | cons b bound ih =>
      obtain ⟨hint, v⟩ := b
      rw [extend_cons, ih]
      simp [hints, push]

theorem CaptureList.length_eq_of_hints {c c' : CaptureList} (h : c.hints = c'.hints) :
    c.length = c'.length := by
  simpa [hints, length] using congrArg List.length h

namespace Emission

theorem isUndefined_of_isPlain {v : Value} (h : v.isPlain = true) : v.isUndefined = false := by
  cases v with
  | undefined => contradiction
  | absent => contradiction
  | safe text => contradiction
  | bound u own => contradiction
  | params items => contradiction
  | _ => rfl

theorem written_of_isPlain {v : Value} (h : v.isPlain = true) (start : Nat) :
    written start v = encodeMarker start := by
  cases v with
  | undefined => contradiction
  | absent => contradiction
  | safe text => contradiction
  | bound u own => contradiction
  | params items => contradiction
  | _ => rfl

theorem bound_of_isPlain {v : Value} (h : v.isPlain = true) (hint : Option String) :
    bound v hint = [(hint, v)] := by
  cases v with
  | undefined => contradiction
  | absent => contradiction
  | safe text => contradiction
  | bound u own => contradiction
  | params items => contradiction
  | _ => rfl

theorem hints_numbered {items items' : List Value} (h : items.length = items'.length)
    (hint : Option String) (n : Nat) :
    (numbered hint n items).map (·.1) = (numbered hint n items').map (·.1) := by
  induction items generalizing items' n with
  | nil =>
      rw [List.eq_nil_of_length_eq_zero h.symm]
  | cons v items ih =>
      cases items' with
      | nil => contradiction
      | cons v' items' =>
          rw [numbered, numbered, List.map_cons, List.map_cons, ih (Nat.succ.inj h)]

variable {v v' : Value}

theorem isUndefined_of_alike (h : v.Alike v') : v.isUndefined = false ∧ v'.isUndefined = false := by
  cases h with
  | plain h h' => exact ⟨isUndefined_of_isPlain h, isUndefined_of_isPlain h'⟩
  | _ => exact ⟨rfl, rfl⟩

theorem written_of_alike (h : v.Alike v') (start : Nat) : written start v = written start v' := by
  cases h with
  | plain h h' => rw [written_of_isPlain h, written_of_isPlain h']
  | params h => rw [written, written, h]
  | raw text => rfl
  | bound u u' hint => rfl

theorem hints_of_alike (h : v.Alike v') (hint : Option String) :
    (bound v hint).map (·.1) = (bound v' hint).map (·.1) := by
  cases h with
  | plain h h' =>
      rw [bound_of_isPlain h, bound_of_isPlain h']
      rfl
  | params h => exact hints_numbered h hint 1
  | raw text => rfl
  | bound u u' hint => rfl

/-- Emission writes the same text for values that are alike, and captures with the same hints. -/
theorem write_of_alike (h : v.Alike v') (hint : Option String) {c c' : CaptureList}
    (hc : c.hints = c'.hints) :
    ∃ text d d', write v hint c = .ok (text, d) ∧ write v' hint c' = .ok (text, d') ∧
      d.hints = d'.hints := by
  obtain ⟨hv, hv'⟩ := isUndefined_of_alike h
  refine ⟨written c.length v, c.extend (bound v hint), c'.extend (bound v' hint), ?_, ?_, ?_⟩
  · rw [write, hv]
    rfl
  · rw [write, hv', written_of_alike h, CaptureList.length_eq_of_hints hc]
    rfl
  · rw [CaptureList.hints_extend, CaptureList.hints_extend, hc, hints_of_alike h]

end Emission

/-! ### Emission -/

/-- Two emissions of values that are alike, with the same hint. -/
def AlikeCalls (call call' : Value × Option String) : Prop :=
  call.1.Alike call'.1 ∧ call.2 = call'.2

namespace PassState

variable {ω ω' : Type}

theorem emitAll_of_alike {calls calls' : List (Value × Option String)}
    (h : List.Forall₂ AlikeCalls calls calls') (s : PassState ω) (s' : PassState ω')
    (hs : s.isSuspended = false) (hs' : s'.isSuspended = false)
    (hhints : s.captures.hints = s'.captures.hints) :
    (∃ texts : List String, (emitAll calls s).1.map (Option.map Piece.text) = texts.map some ∧
      (emitAll calls' s').1.map (Option.map Piece.text) = texts.map some) ∧
    (emitAll calls s).2.captures.hints = (emitAll calls' s').2.captures.hints := by
  -- the numbers of the markers are the same in both runs because the captures have the same hints
  induction h generalizing s s' with
  | nil => exact ⟨⟨[], rfl, rfl⟩, hhints⟩
  | @cons call call' calls calls' halike _ ih =>
      obtain ⟨v, hint⟩ := call
      obtain ⟨v', hint'⟩ := call'
      obtain ⟨hv, rfl⟩ : v.Alike v' ∧ hint = hint' := halike
      obtain ⟨text, d, d', hwrite, hwrite', hd⟩ := Emission.write_of_alike hv hint hhints
      have hemit := emit_eq hs v hint
      have hemit' := emit_eq hs' v' hint
      rw [hwrite] at hemit
      rw [hwrite'] at hemit'
      obtain ⟨⟨texts, htexts, htexts'⟩, hrest⟩ :=
        ih { s with captures := d } { s' with captures := d' } hs hs' hd
      simp only [emitAll, hemit, hemit']
      exact ⟨⟨text :: texts, congrArg _ htexts, congrArg _ htexts'⟩, hrest⟩

end PassState

/-! ### Formatting -/

/-- What has been formatted so far, without the values. -/
def Formatted.outline (f : Formatted) : String × KeyAllocator × List String :=
  (f.query, f.keys, f.bound.map (·.1))

theorem keys_bindKey {bound bound' : List (String × Value)}
    (h : bound.map (·.1) = bound'.map (·.1)) (key : String) (v v' : Value) :
    (bindKey key v bound).map (·.1) = (bindKey key v' bound').map (·.1) := by
  induction bound generalizing bound' with
  | nil =>
      obtain rfl := List.map_eq_nil_iff.mp h.symm
      rfl
  | cons entry rest ih =>
      cases bound' with
      | nil => cases h
      | cons entry' rest' =>
          obtain ⟨k, w⟩ := entry
          obtain ⟨k', w'⟩ := entry'
          obtain ⟨rfl, hrest⟩ : k = k' ∧ rest.map (·.1) = rest'.map (·.1) := List.cons.inj h
          rw [bindKey, bindKey]
          by_cases hk : k = key
          · rw [if_pos hk, if_pos hk, List.map_cons, List.map_cons, hrest]
          · rw [if_neg hk, if_neg hk, List.map_cons, List.map_cons, ih hrest]

namespace Formatted

theorem outline_bind {style : ParamStyle} {capture capture' : Capture} {f f' : Formatted}
    (hhint : capture.hint = capture'.hint) (h : f.outline = f'.outline) :
    (f.bind style capture).outline = (f'.bind style capture').outline := by
  obtain ⟨query, keys, bound⟩ := f
  obtain ⟨query', keys', bound'⟩ := f'
  simp only [outline, Prod.mk.injEq] at h
  obtain ⟨rfl, rfl, hbound⟩ := h
  have hlength : bound.length = bound'.length := by simpa using congrArg List.length hbound
  simp only [outline, bind, hhint, hlength]
  cases style.container with
  | mapping => simp only [keys_bindKey hbound _ capture.value capture'.value]
  | sequence => simp [hbound]

end Formatted

theorem formatSegments_outline {captures captures' : CaptureList}
    (h : captures.hints = captures'.hints) (style : ParamStyle) (segs : List Segment)
    {f f' : Formatted} (hf : f.outline = f'.outline) :
    (formatSegments captures style segs f).map Formatted.outline =
      (formatSegments captures' style segs f').map Formatted.outline := by
  induction segs generalizing f f' with
  | nil => exact congrArg Except.ok hf
  | cons segment rest ih =>
      cases segment with
      | text run =>
          rw [formatSegments, formatSegments]
          refine ih ?_
          simp only [Formatted.outline, Prod.mk.injEq] at hf ⊢
          exact ⟨congrArg (· ++ String.ofList run) hf.1, hf.2⟩
      | marker index =>
          -- the marker has a capture in both runs or in neither
          have hget : (captures.get? index).map (·.hint) = (captures'.get? index).map (·.hint) := by
            have hindex := congrArg (·[index]?) h
            simpa [CaptureList.hints, CaptureList.get?] using hindex
          rw [formatSegments, formatSegments]
          cases hcapture : captures.get? index with
          | none =>
              rw [hcapture] at hget
              rw [Option.map_eq_none_iff.mp hget.symm, CaptureList.length_eq_of_hints h]
          | some capture =>
              rw [hcapture] at hget
              obtain ⟨capture', hcapture', hhint⟩ := Option.map_eq_some_iff.mp hget.symm
              rw [hcapture']
              exact ih (Formatted.outline_bind hhint.symm hf)

/-- A formatted query without the values of its parameters. -/
def RenderedQuery.outline (q : RenderedQuery) : String × List String × Nat :=
  (q.query, q.params.keys, q.params.length)

theorem Formatted.outline_finish {f f' : Formatted} (h : f.outline = f'.outline)
    (style : ParamStyle) : (f.finish style).outline = (f'.finish style).outline := by
  simp only [outline, Prod.mk.injEq] at h
  obtain ⟨hquery, -, hbound⟩ := h
  have hlength : f.bound.length = f'.bound.length := by simpa using congrArg List.length hbound
  rw [finish, finish]
  cases style.container with
  | mapping => simp [RenderedQuery.outline, Params.keys, Params.length, hquery, hbound, hlength]
  | sequence => simp [RenderedQuery.outline, Params.keys, Params.length, hquery, hlength]

/-- Formatting depends on the hints of the captured values only. -/
theorem formatQuery_outline {captures captures' : CaptureList}
    (h : captures.hints = captures'.hints) (text : String) (style : ParamStyle) :
    (formatQuery text captures style).map RenderedQuery.outline =
      (formatQuery text captures' style).map RenderedQuery.outline := by
  rw [formatQuery, formatQuery]
  rcases segments text.toList with e | segs
  · rfl
  · have hformat := formatSegments_outline h style segs (f := {}) rfl
    simp only
    generalize formatSegments captures style segs {} = result at hformat ⊢
    generalize formatSegments captures' style segs {} = result' at hformat ⊢
    cases result with
    | error e =>
        cases result' with
        | error e' =>
            cases hformat
            rfl
        | ok f' => contradiction
    | ok f =>
        cases result' with
        | error e' => contradiction
        | ok f' =>
            exact congrArg Except.ok (Formatted.outline_finish (Except.ok.inj hformat) style)

/-- Two runs that emit values which are alike are given the same texts, and whatever is put together
from these texts is formatted to the same query with the same keys, or fails with the same error,
in every style. -/
theorem emit_format_noninterference {ω ω' : Type} {calls calls' : List (Value × Option String)}
    (h : List.Forall₂ AlikeCalls calls calls') (outputs outputs' : CallLog) (world : ω)
    (world' : ω')
    {emitted emitted' : List (Option Piece)} {s : PassState ω} {s' : PassState ω'}
    (hemit : PassState.emitAll calls { outputs, world } = (emitted, s))
    (hemit' : PassState.emitAll calls' { outputs := outputs', world := world' } = (emitted', s')) :
    ∃ texts : List String,
      emitted.map (Option.map Piece.text) = texts.map some ∧
      emitted'.map (Option.map Piece.text) = texts.map some ∧
      ∀ (assemble : List String → String) (style : ParamStyle),
        (formatQuery (assemble texts) s.captures style).map RenderedQuery.outline =
          (formatQuery (assemble texts) s'.captures style).map RenderedQuery.outline := by
  obtain ⟨⟨texts, htexts, htexts'⟩, hhints⟩ := PassState.emitAll_of_alike h { outputs, world }
    { outputs := outputs', world := world' } rfl rfl rfl
  rw [hemit] at htexts hhints
  rw [hemit'] at htexts' hhints
  exact ⟨texts, htexts, htexts', fun assemble style => formatQuery_outline hhints _ style⟩

theorem emit_format_noninterference_quotes :
    let run := PassState.emitAll
      [(.safe "a", none), (.str "x", some "a.b"), (.params [.int 1], none)]
      { world := () }
    let run' := PassState.emitAll
      [(.safe "a", none), (.str "' OR :a__b_1 --", some "a.b"), (.params [.str "%s"], none)]
      { world := () }
    ∃ texts : List String,
      run.1.map (Option.map Piece.text) = texts.map some ∧
      run'.1.map (Option.map Piece.text) = texts.map some ∧
      ∀ (assemble : List String → String) (style : ParamStyle),
        (formatQuery (assemble texts) run.2.captures style).map RenderedQuery.outline =
          (formatQuery (assemble texts) run'.2.captures style).map RenderedQuery.outline := by
  refine emit_format_noninterference ?_ [] [] () () rfl rfl
  exact .cons ⟨.raw "a", rfl⟩ (.cons ⟨.plain rfl rfl, rfl⟩ (.cons ⟨.params rfl, rfl⟩ .nil))

end QueryTemplate
