import QueryTemplate.Proofs.TagAgreement

/-!
An instrumented source seen by the lexer. The parts that the instrumentation acts on are the
comments, raw sections and tags that the lexer finds, in the source and in what becomes of it. There
every expression tag is one that ends in the emit filter, and comments and raw sections are as they
were.
-/

namespace QueryTemplate

open Template Template.Lexer

namespace Instrument

variable {ws : Whitespace} {text : List Char}

/-- The parts of a text do not join. -/
theorem apart_of_partsFrom {fuel line : Nat} {parts : List Part} (hfuel : text.length ≤ fuel)
    (h : partsFrom fuel line text = .ok parts) : Apart parts := by
  induction fuel generalizing line text parts with
  | zero =>
      obtain rfl := List.length_eq_zero_iff.mp (Nat.le_zero.mp hfuel)
      cases h
      trivial
  | succ fuel ih =>
      cases text with
      | nil =>
          cases h
          trivial
      | cons c rest =>
          obtain ⟨part, after, more, hfirst, hmore, rfl⟩ := partsFrom_cons h
          have hle := length_after_le hfirst
          rw [List.length_cons] at hfuel
          refine ⟨?_, ih (by omega) hmore⟩
          rw [← source_of_partsFrom hmore]
          exact (firstPart_ok hfirst).2.1

/-- The part whose source is what is written for a part. -/
def Part.rewritten : Part → Part
  | expression inner => .expression (between ((expressionTag inner).getD []))
  | part => part

theorem Part.kind?_rewritten (part : Part) : part.rewritten.kind? = part.kind? := by
  cases part <;> rfl

/-- What is written for an expression tag is an expression tag. -/
theorem Part.Stands.source_rewritten {part : Part} (h : part.Stands) (hplain : part.IsPlain) :
    part.rewritten.source = part.written ∧ part.rewritten.Readable := by
  cases part with
  | expression inner =>
      obtain ⟨inner', hinner', hbalanced⟩ := expressionTag_balanced hplain h.expressionTag_eq
      have hbetween : between (Part.expression inner).written = inner' := by
        simp [hinner', between]
      rw [hinner', Part.rewritten, ← Part.written, hbetween]
      exact ⟨rfl, hbalanced⟩
  | _ => exact ⟨rfl, h.readable hplain⟩

theorem spans_rewritten {parts : List Part}
    (h : ∀ p ∈ parts, p.rewritten.source = p.written) (offset : Nat) :
    Part.spans Part.source offset (parts.map Part.rewritten) =
      Part.spans Part.written offset parts := by
  induction parts generalizing offset with
  | nil => rfl
  | cons part parts ih =>
      rw [List.forall_mem_cons] at h
      rw [List.map_cons, Part.spans, Part.spans, Part.kind?_rewritten, h.1, ih h.2]

/-- What is written for parts begins as their source does. -/
theorem head?_rewritten (parts : List Part) :
    ((parts.map Part.rewritten).flatMap Part.source).head? = (parts.flatMap Part.source).head? := by
  cases parts with
  | nil => rfl
  | cons part parts => cases part <;> rfl

theorem Apart.rewritten {parts : List Part} (hready : ∀ p ∈ parts, p.rewritten.Readable)
    (h : Apart parts) : Apart (parts.map Part.rewritten) := by
  induction parts with
  | nil => trivial
  | cons part parts ih =>
      rw [List.forall_mem_cons] at hready
      refine ⟨?_, ih hready.2 h.2⟩
      rcases hready.1.exists_last with ⟨c, hc⟩ | ⟨run, hrun⟩
      · cases part with
        | literal d =>
            rintro ⟨hlast, d', hd', hhead⟩
            exact h.1 ⟨hlast, d', hd', (head?_rewritten parts).symm.trans hhead⟩
        | _ => cases hc
      · exact not_joins_of_eq_append run _ hrun

theorem mem_spans {look : Part → List Char} {parts : List Part} {span : Span} {offset : Nat}
    (h : span ∈ Part.spans look offset parts) :
    ∃ part ∈ parts, part.kind? = some span.kind ∧ span.text = look part := by
  induction parts generalizing offset with
  | nil => cases h
  | cons part parts ih =>
      rw [Part.spans] at h
      cases hkind : part.kind? with
      | none =>
          rw [hkind] at h
          obtain ⟨later, hlater, hspan⟩ := ih h
          exact ⟨later, List.mem_cons_of_mem _ hlater, hspan⟩
      | some kind =>
          rw [hkind] at h
          rcases List.mem_cons.mp h with rfl | h
          · exact ⟨part, List.mem_cons_self, hkind, rfl⟩
          · obtain ⟨later, hlater, hspan⟩ := ih h
            exact ⟨later, List.mem_cons_of_mem _ hlater, hspan⟩

/-- The instrumentation and the lexer agree on where the tags of a source are, provided that its
parts are plain. The lexer finds in the source the comments, raw sections and tags that the
instrumentation acts on, and in the instrumented source what is written for each of them, one after
the other. Every expression tag there ends in the emit filter; all else is as it was. -/
theorem spans_instrument (ws : Whitespace) {source out : List Char} {parts : List Part}
    (h : instrument source = .ok out) (hparts : partsFrom source.length 1 source = .ok parts)
    (hplain : ∀ part ∈ parts, part.IsPlain) :
    (source = parts.flatMap Part.source ∧ out = parts.flatMap Part.written) ∧
      ((lex ws source).fault = none →
        Template.spans ws source = Part.spans Part.source 0 parts) ∧
      ((lex ws out).fault = none →
        Template.spans ws out = Part.spans Part.written 0 parts ∧
          ∀ span ∈ Template.spans ws out, span.kind = .expression →
            ∃ inner, .expression inner ∈ parts ∧ expressionTag inner = some span.text) ∧
      ∀ part ∈ parts, part.written = part.source ∨
        ∃ inner, part = .expression inner ∧ expressionTag inner = some part.written := by
  obtain ⟨-, parts', hparts', rfl⟩ := exists_parts_of_ok h
  obtain rfl : parts' = parts := by
    rw [hparts] at hparts'
    exact (Except.ok.inj hparts').symm
  have hsource := source_of_partsFrom hparts
  have hstands := stands_of_mem (Nat.le_refl _) hparts
  have hapart := apart_of_partsFrom (Nat.le_refl _) hparts
  have hrewritten (part : Part) (hpart : part ∈ parts') :=
    (hstands part hpart).source_rewritten (hplain part hpart)
  refine ⟨⟨hsource, rfl⟩, fun hfault => ?_, fun hfault => ?_,
    fun part hpart => (hstands part hpart).written_eq⟩
  · rw [hsource] at hfault ⊢
    exact spans_parts (fun part hpart => (hstands part hpart).readable (hplain part hpart)) hapart
      hfault
  · -- The instrumented source is itself the source of parts, which are read like the others.
    have hwritten : (parts'.map Part.rewritten).flatMap Part.source =
        parts'.flatMap Part.written := by
      rw [List.flatMap_map]
      exact List.flatMap_congr fun part hpart => (hrewritten part hpart).1
    have hready : ∀ part ∈ parts'.map Part.rewritten, part.Readable :=
      List.forall_mem_map.mpr fun part hpart => (hrewritten part hpart).2
    have hspans : Template.spans ws (parts'.flatMap Part.written) =
        Part.spans Part.written 0 parts' := by
      rw [← hwritten] at hfault ⊢
      rw [spans_parts hready (hapart.rewritten fun part hpart => (hrewritten part hpart).2) hfault,
        spans_rewritten fun part hpart => (hrewritten part hpart).1]
    refine ⟨hspans, fun span hspan hkind => ?_⟩
    rw [hspans] at hspan
    obtain ⟨part, hpart, hpartKind, htext⟩ := mem_spans hspan
    rw [hkind] at hpartKind
    cases part with
    | expression inner =>
        exact ⟨inner, hpart, by rw [(hstands _ hpart).expressionTag_eq, htext]⟩
    | _ => cases hpartKind

/-- Tags of all kinds, with white space control and with delimiters in a raw section and in a string
literal. -/
theorem spans_instrument_kinds :
    let source := ("a\x7b\x7b v \x7d\x7d\n\x7b#- c -#\x7d\x7b% raw -%\x7d \x7b\x7b x \x7d\x7d " ++
      "\x7b%- endraw +%\x7d\x7b% if a %\x7d\x7b\x7b- b['\x7d\x7d'] -\x7d\x7d" ++
      "\x7b% endif %\x7d").toList
    let parts : List Part := [.literal 'a', .expression " v ".toList, .literal '\n',
      .comment "#- c -".toList,
      .raw " raw -".toList " \x7b\x7b x \x7d\x7d \x7b%- endraw +%\x7d".toList,
      .block " if a ".toList, .expression "- b['\x7d\x7d'] -".toList, .block " endif ".toList]
    let out := parts.flatMap Part.written
    instrument source = .ok out ∧ partsFrom source.length 1 source = .ok parts ∧
      (∀ part ∈ parts, part.IsPlain) ∧
      Template.spans {} source = Part.spans Part.source 0 parts ∧
      Template.spans {} out = Part.spans Part.written 0 parts ∧
      ∃ inner, .expression inner ∈ parts ∧ expressionTag inner = some
        ("\x7b\x7b- (b['\x7d\x7d']) | __sqlstencil_emit(__sqlstencil_scope, none) " ++
          "-\x7d\x7d").toList := by
  intro source parts out
  have hout : instrument source = .ok out := by decide +kernel
  have hparts : partsFrom source.length 1 source = .ok parts := by decide +kernel
  have hplain : ∀ part ∈ parts, part.IsPlain := by decide +kernel
  have hlex : (lex {} source).fault.isNone = true := by decide +kernel
  have hlex' : (lex {} out).fault.isNone = true := by decide +kernel
  obtain ⟨-, hspans, hspans', -⟩ := spans_instrument {} hout hparts hplain
  have hsource := hspans (Option.isNone_iff_eq_none.mp hlex)
  obtain ⟨hspans', htags⟩ := hspans' (Option.isNone_iff_eq_none.mp hlex')
  have htag : ⟨.expression, 108,
      ("\x7b\x7b- (b['\x7d\x7d']) | __sqlstencil_emit(__sqlstencil_scope, none) " ++
        "-\x7d\x7d").toList⟩ ∈ Template.spans {} out := by
    rw [hspans']
    decide +kernel
  obtain ⟨inner, hinner, htext⟩ := htags _ htag rfl
  exact ⟨hout, hparts, hplain, hsource, hspans', inner, hinner, htext⟩

/-- A comment that is closed by the sign that opens it, if that counts, hides the next tag from the
instrumentation: the lexer finds an expression tag that is not written anew, or a comment that is.
The same holds for a raw section that a tag ends only if two signs for white space control may stand
in it. -/
theorem spans_instrument_differ :
    let hidden := "\x7b#\x7d\x7b% '#\x7d\x7b\x7b v \x7d\x7d\x7b#' %\x7d#\x7d".toList
    let comment := "\x7b#\x7d\x7b\x7b v \x7d\x7d#\x7d".toList
    let section_ := ("\x7b% raw %\x7d\x7b%-- endraw %\x7d\x7b\x7b v \x7d\x7d" ++
      "\x7b% endraw %\x7d").toList
    (instrument hidden = .ok hidden ∧ (lex {} hidden).fault = none ∧
        ⟨.expression, 9, "\x7b\x7b v \x7d\x7d".toList⟩ ∈ Template.spans {} hidden) ∧
      (∃ out, instrument comment = .ok out ∧ (lex {} comment).fault = none ∧
        Template.spans {} comment = [⟨.comment, 0, comment⟩] ∧
        Template.spans {} out = [⟨.comment, 0, out⟩] ∧ out ≠ comment) ∧
      ∃ out, instrument section_ = .ok out ∧ (lex {} section_).fault = none ∧
        Template.spans {} section_ = [⟨.raw, 0, section_⟩] ∧
        Template.spans {} out = [⟨.raw, 0, out⟩] ∧ out ≠ section_ := by
  intro hidden comment section_
  have hhidden : (lex {} hidden).fault.isNone = true := by decide +kernel
  have hcomment : (lex {} comment).fault.isNone = true := by decide +kernel
  have hsection : (lex {} section_).fault.isNone = true := by decide +kernel
  refine ⟨⟨by decide +kernel, Option.isNone_iff_eq_none.mp hhidden, by decide +kernel⟩,
    ⟨("\x7b#\x7d\x7b\x7b (v) | __sqlstencil_emit(__sqlstencil_scope, \"v\") \x7d\x7d#\x7d").toList,
      by decide +kernel, Option.isNone_iff_eq_none.mp hcomment, by decide +kernel,
      by decide +kernel, by decide +kernel⟩,
    ⟨("\x7b% raw %\x7d\x7b%-- endraw %\x7d" ++
        "\x7b\x7b (v) | __sqlstencil_emit(__sqlstencil_scope, \"v\") \x7d\x7d" ++
        "\x7b% endraw %\x7d").toList,
      by decide +kernel, Option.isNone_iff_eq_none.mp hsection, by decide +kernel,
      by decide +kernel, by decide +kernel⟩⟩

end Instrument

end QueryTemplate
