import QueryTemplate.Proofs.NameHints

/-!
The lines of an instrumented source. Only expression tags are written anew, and their text keeps
every line break but those in the white space around the expression. A part of the source therefore
begins as many lines further up in the instrumented source as line breaks have been left out of the
expression tags in front of it.
-/

namespace QueryTemplate.Instrument

/-- How many line breaks the white space around the expression of a tag has. -/
def breaksAround (inner : List Char) : Nat :=
  Text.newlines inner - Text.newlines (expressionOf inner)

/-- How many line breaks the part has less when it is written. -/
def Part.lostBreaks : Part → Nat
  | expression inner => breaksAround inner
  | _ => 0

/-- How many line breaks a sequence of parts has less when it is written. -/
def lostBreaks : List Part → Nat
  | [] => 0
  | part :: parts => part.lostBreaks + lostBreaks parts

theorem newlines_eq_zero {text : List Char} (h : '\n' ∉ text) : Text.newlines text = 0 :=
  List.count_eq_zero.mpr h

theorem newlines_control {text : List Char} (h : ∀ x ∈ text, isControl x = true) :
    Text.newlines text = 0 :=
  newlines_eq_zero fun hmem => absurd (h _ hmem) (by decide)

theorem newlines_hintArgument (expr : List Char) : Text.newlines (hintArgument expr) = 0 := by
  rw [hintArgument]
  split
  · rename_i hint hhint
    refine newlines_eq_zero fun hmem => ?_
    have hmem : '\n' ∈ hint := by simpa using hmem
    rcases isPart_of_extractNameHint hhint _ hmem with h | h <;> exact absurd h (by decide)
  · rfl

/-- What is written around an expression has no line break. -/
theorem newlines_emissionTag {opening closing : List Char} (hopening : Text.newlines opening = 0)
    (hclosing : Text.newlines closing = 0) (expr : List Char) :
    Text.newlines (emissionTag opening expr closing) = Text.newlines expr := by
  have hemit : Text.newlines emitName.toList = 0 := by decide
  have hscope : Text.newlines scopeName.toList = 0 := by decide
  have hhint := newlines_hintArgument expr
  simp only [Text.newlines] at *
  simp [emissionTag, emissionOf, List.count_append, hopening, hclosing, hemit, hscope, hhint]

/-- The line breaks of a tag are those of its expression and those around it. -/
theorem newlines_eq_add_breaksAround (inner : List Char) :
    Text.newlines inner = Text.newlines (expressionOf inner) + breaksAround inner := by
  have hle : Text.newlines (expressionOf inner) ≤ Text.newlines inner := by
    obtain ⟨front, back, hinner, -, -⟩ := exists_expressionOf inner
    have hcount := congrArg Text.newlines hinner
    simp only [newlines_append] at hcount
    omega
  rw [breaksAround]
  omega

/-- A part has the line breaks that it is written with and those that it loses. -/
theorem Part.Stands.newlines_source {part : Part} (h : part.Stands) :
    Text.newlines part.source = Text.newlines part.written + part.lostBreaks := by
  cases part with
  | expression inner =>
      have hopening := newlines_control fun x => isControl_of_mem_openingOf inner
      have hclosing := newlines_control fun x => isControl_of_mem_closingOf inner
      rw [newlines_expression, h.written_expression.2, newlines_emissionTag hopening hclosing]
      exact newlines_eq_add_breaksAround inner
  | _ => rfl

/-- Parts in sequence have the line breaks that they are written with and those that they lose. -/
theorem newlines_flatMap_source {parts : List Part} (h : ∀ part ∈ parts, part.Stands) :
    Text.newlines (parts.flatMap Part.source) =
      Text.newlines (parts.flatMap Part.written) + lostBreaks parts := by
  induction parts with
  | nil => rfl
  | cons part parts ih =>
      rw [List.forall_mem_cons] at h
      have hpart := h.1.newlines_source
      have hparts := ih h.2
      rw [List.flatMap_cons, List.flatMap_cons, newlines_append, newlines_append, lostBreaks]
      omega

/-- No line break is lost if and only if no expression tag loses one. -/
theorem lostBreaks_eq_zero_iff {parts : List Part} :
    lostBreaks parts = 0 ↔ ∀ inner, .expression inner ∈ parts → breaksAround inner = 0 := by
  have hzero : lostBreaks parts = 0 ↔ ∀ part ∈ parts, part.lostBreaks = 0 := by
    induction parts with
    | nil => simp [lostBreaks]
    | cons part parts ih =>
        rw [List.forall_mem_cons, ← ih, lostBreaks]
        exact Nat.add_eq_zero_iff
  rw [hzero]
  refine ⟨fun h inner hinner => h _ hinner, fun h part hpart => ?_⟩
  cases part with
  | expression inner => exact h inner hpart
  | _ => rfl

/-- The instrumented source has the line breaks of the source but those between the delimiters of an
expression tag and its expression. A part of the source begins as many lines further up as line
breaks have been left out in front of it: on its own line if and only if each expression tag in
front of it has its expression on the lines of its delimiters. -/
theorem lines_instrument {source out : List Char} (h : instrument source = .ok out) :
    ∃ parts, partsFrom source.length 1 source = .ok parts ∧
      source = parts.flatMap Part.source ∧ out = parts.flatMap Part.written ∧
      Text.newlines source = Text.newlines out + lostBreaks parts ∧
      (Text.newlines out = Text.newlines source ↔
        ∀ inner, .expression inner ∈ parts → breaksAround inner = 0) ∧
      ∀ before part after, parts = before ++ part :: after →
        1 + Text.newlines (before.flatMap Part.source) =
            1 + Text.newlines (before.flatMap Part.written) + lostBreaks before ∧
          (1 + Text.newlines (before.flatMap Part.written) =
              1 + Text.newlines (before.flatMap Part.source) ↔
            ∀ inner, .expression inner ∈ before → breaksAround inner = 0) := by
  obtain ⟨-, parts, hparts, rfl⟩ := exists_parts_of_ok h
  have hsource := source_of_partsFrom hparts
  have hstands := stands_of_mem (Nat.le_refl _) hparts
  have hlines := newlines_flatMap_source hstands
  rw [← hsource] at hlines
  refine ⟨parts, hparts, hsource, rfl, hlines, ?_, ?_⟩
  · rw [← lostBreaks_eq_zero_iff]
    omega
  · intro before part after hsplit
    have hbefore := newlines_flatMap_source fun part hpart =>
      hstands part (hsplit ▸ List.mem_append_left _ hpart)
    rw [← lostBreaks_eq_zero_iff]
    omega

/-- A line break inside an expression is kept, and so is the line of the next tag. -/
theorem lines_instrument_inside :
    let source := "\x7b\x7b a +\n b \x7d\x7d\n\x7b\x7b 1 // 0 \x7d\x7d".toList
    let inner := " a +\n b ".toList
    let tag : Part := .expression inner
    let out := tag.written ++ '\n' :: (Part.expression " 1 // 0 ".toList).written
    instrument source = .ok out ∧ breaksAround inner = 0 ∧
      Text.newlines out = Text.newlines source ∧
      1 + Text.newlines (tag.written ++ ['\n']) = 3 := by
  intro source inner tag out
  have hout : instrument source = .ok out := by decide +kernel
  have hparts : partsFrom source.length 1 source =
      .ok [tag, .literal '\n', .expression " 1 // 0 ".toList] := by decide +kernel
  have hbreaks : lostBreaks [tag, .literal '\n', .expression " 1 // 0 ".toList] = 0 := by
    decide +kernel
  have hbefore : lostBreaks [tag, .literal '\n'] = 0 := by decide +kernel
  obtain ⟨parts, hparts', -, -, -, htotal, hstart⟩ := lines_instrument hout
  cases hparts.symm.trans hparts'
  have hbreaks := lostBreaks_eq_zero_iff.mp hbreaks
  have hline := (hstart [tag, .literal '\n'] _ [] rfl).2.mpr (lostBreaks_eq_zero_iff.mp hbefore)
  refine ⟨hout, hbreaks _ List.mem_cons_self, htotal.mpr hbreaks, ?_⟩
  have htext : [tag, .literal '\n'].flatMap Part.written = tag.written ++ ['\n'] := rfl
  rw [← htext, hline]
  decide +kernel

/-- With an expression on a line of its own, the instrumented source has two lines less. The engine,
which finds a division on the second line, reports an error there that is on the fourth line of the
source. -/
theorem lines_instrument_differ :
    let source := "\x7b\x7b\na\n\x7d\x7d\n\x7b\x7b 1 // 0 \x7d\x7d".toList
    let tag : Part := .expression "\na\n".toList
    let out := tag.written ++ '\n' :: (Part.expression " 1 // 0 ".toList).written
    instrument source = .ok out ∧ Text.newlines source = 3 ∧ Text.newlines out = 1 ∧
      ⟨.symbol "//", 4⟩ ∈ (Template.lex {} source).lexemes ∧
      ⟨.symbol "//", 2⟩ ∈ (Template.lex {} out).lexemes := by
  decide +kernel

end QueryTemplate.Instrument
