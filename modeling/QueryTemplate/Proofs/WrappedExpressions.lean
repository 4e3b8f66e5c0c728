import QueryTemplate.Proofs.BracketCounts
import QueryTemplate.Proofs.MediatedParsing
import QueryTemplate.Proofs.TagLexing

/-!
The parentheses that are written around an expression. No expression gets out of them. If it closes
the brackets that it opens, and no others, the engine reads all of it as the operand of the emit
filter. If it does not, it has more closing brackets than opening ones, and the engine finds no
expression in the tag.
-/

namespace QueryTemplate

open Template

namespace Template.Parser

variable {rest : List Lexeme}

theorem rest_of_expect {token : Token} {wanted : String} {s s' : ParserState} {u : Unit}
    (h : expect token wanted s = .ok (u, s')) : ∃ line, s.rest = ⟨token, line⟩ :: s'.rest := by
  unfold expect at h
  rcases next_ok h with ⟨-, hnone⟩ | ⟨⟨found, line⟩, rest, hrest, h⟩
  · cases hnone
  · dsimp only at h
    split at h
    · rename_i htoken
      cases h
      exact ⟨line, by rw [hrest, ← htoken]⟩
    · cases h

/-- A body that begins with an expression tag begins with an expression and the end of the tag. -/
theorem exists_of_body {fuel line : Nat} {stops : List String} {s s' : ParserState}
    {stmts : List Stmt} (h : body fuel stops s = .ok (stmts, s'))
    (hs : s.rest = ⟨.expressionStart, line⟩ :: rest) :
    ∃ fuel' e t endLine after more, expr fuel' (s.on rest line) = .ok (e, t) ∧
      t.rest = ⟨.expressionEnd, endLine⟩ :: after ∧ stmts = .emit line e :: more := by
  cases fuel with
  | zero => unfold body at h; cases h
  | succ fuel =>
      rw [on_self hs, body, bind_of_ok next_on] at h
      dsimp only at h
      obtain ⟨e, t, hexpr, h⟩ := exists_of_bind_ok h
      obtain ⟨u, t', hend, h⟩ := exists_of_bind_ok h
      obtain ⟨more, t'', hmore, h⟩ := exists_of_bind_ok h
      cases h
      obtain ⟨endLine, hrest⟩ := rest_of_expect hend
      exact ⟨fuel, e, t, endLine, t'.rest, more, hexpr, hrest, rfl⟩

/-- No expression ends with the tag if the tokens stop in front of its end, or if they close a
bracket that is not open. -/
theorem not_expr_of_nestAll {tokens more after : List Lexeme} {d fuel endLine : Nat}
    {s t : ParserState} {e : Expr} (hnest : nestAll tokens 1 = some d) (hmore : more = [] ∨ d = 0)
    (hs : s.rest = tokens ++ more) (h : expr fuel s = .ok (e, t))
    (ht : t.rest = ⟨.expressionEnd, endLine⟩ :: after) : False := by
  obtain ⟨taken, htaken, hsteady⟩ := (steady_expr fuel).takes _ s e t rfl h
  rw [ht, hs] at htaken
  rcases List.append_eq_append_iff.mp htaken with ⟨last, rfl, hlast⟩ | ⟨left, rfl, hleft⟩
  · rcases hmore with rfl | rfl
    · exact absurd hlast.symm (by simp)
    · rw [nestAll_append, hnest, Option.bind_some] at hsteady
      rw [nestAll_zero hsteady] at hsteady
      cases hsteady
  · cases left with
    | nil =>
        rw [List.append_nil, hsteady] at hnest
        cases hnest
        rcases hmore with rfl | hzero
        · cases hleft
        · cases hzero
    | cons l left =>
        cases (List.cons.inj hleft).1
        rw [nestAll_append, hsteady] at hnest
        cases hnest

end Template.Parser

namespace Instrument

open Template.Lexer

variable {expr : List Char}

/-- Where a scan is outside string literals and brackets, the tag does not end for the lexer. -/
theorem Clear.tagEnd?_eq_none (h : Clear expr) {a b : List Char} (hab : expr = a ++ b)
    (ha : (Place.outside 0).clampedAfter a = .outside 0) (tail : List Char) :
    tagEnd? false (b ++ ')' :: tail) = none := by
  cases hend : tagEnd? false (b ++ ')' :: tail) with
  | none => rfl
  | some found =>
      obtain ⟨mark, hmark, htext⟩ := exists_of_tagEnd? hend
      have hnot : ')' ∉ mark ++ ['}', '}'] := by
        rw [List.mem_append]
        rintro (hmem | hmem)
        · exact absurd (hmark.isControl_of_mem hmem) (by decide)
        · exact absurd hmem (by decide)
      have hsplit : b ++ ')' :: tail = (mark ++ ['}', '}']) ++ found.2 := by simpa using htext
      obtain ⟨left, rfl, -⟩ := exists_of_append_eq hsplit hnot
      have hinert : ∀ x ∈ mark, isInert x = true := fun x hx =>
        isInert_of_isControl (hmark.isControl_of_mem hx)
      have hplace : (Place.outside 0).after mark = some ((Place.outside 0).clampedAfter mark) :=
        Place.after_eq_clampedAfter hinert
      rw [Place.after_inert hinert] at hplace
      refine absurd rfl (h (a ++ mark) ('}' :: '}' :: left) left ?_ ?_)
      · rw [hab]
        simp
      · rw [Place.clampedAfter_append, ha]
        exact (Option.some.inj hplace).symm

/-- In an expression in parentheses the tag does not end for the lexer where it counts no bracket as
open. -/
theorem Clear.tagEnd?_parenthesized (h : Clear expr) {front back : List Char}
    (hsplit : '(' :: expr ++ [')'] = front ++ back) (hback : back ≠ [])
    (hfront : (Place.outside 0).after front = some (.outside 0)) (tail : List Char) :
    tagEnd? false (back ++ tail) = none := by
  cases front with
  | nil =>
      rw [List.nil_append] at hsplit
      rw [← hsplit]
      rfl
  | cons x a =>
      rw [List.cons_append, List.cons_append] at hsplit
      obtain ⟨rfl, hrest⟩ := List.cons.inj hsplit
      obtain ⟨b, last, rfl⟩ := (List.eq_nil_or_concat back).resolve_left hback
      rw [List.concat_eq_append, ← List.append_assoc] at hrest
      obtain ⟨hexpr, hlast⟩ := List.append_inj' hrest rfl
      cases hlast
      have hopen : ((Place.outside 0).deeper 1).after a = some (.outside 0) := hfront
      have hclamped : .outside 0 = (Place.outside 0).clampedAfter a := by
        rcases Place.eq_clampedAfter_of_deeper (.inl rfl) hopen with hdeeper | hsame
        · cases hplace : (Place.outside 0).clampedAfter a <;> rw [hplace] at hdeeper <;> cases hdeeper
        · exact hsame
      have hend := h.tagEnd?_eq_none hexpr hclamped.symm tail
      simpa using hend

end Instrument

namespace Template.Lexer

open Instrument

variable {opening closing expr rest : List Char}

/-- The tokens of a tag with too many closing brackets in its expression: the lexer stops before the
end of the tag, or a bracket is closed in front of it that is not open. -/
theorem tagLexemes_surplus (ws : Whitespace) (hclear : Clear expr)
    (hexpr : (Place.outside 0).after ('(' :: expr ++ [')']) = none) (hopening : IsMark opening)
    {c : Cursor} (hc : c.rest = emissionTag opening expr closing ++ rest) {fuel : Nat}
    (hfuel : c.rest.length ≤ fuel) :
    ∃ tokens d more, nestAll tokens 1 = some d ∧ (more = [] ∨ d = 0) ∧
      tagLexemes ws fuel c = ⟨.expressionStart, c.line⟩ :: (tokens ++ more) := by
  obtain ⟨run, x, left, hsplit, hrun, hx⟩ := Place.exists_of_after_eq_none hexpr
  obtain ⟨-, -, -, hclosing⟩ := Place.eq_of_next_eq_none hx
  rw [emissionTag_append] at hc
  obtain ⟨fuel, rfl⟩ : ∃ n, fuel = n + 2 := by
    rw [hc] at hfuel
    exact ⟨fuel - 2, by simp at hfuel; omega⟩
  obtain ⟨before, hbegin⟩ := tagLexemes_begin ws hopening hc fuel
  -- Behind the parenthesis that closes the expression.
  obtain ⟨tail, htail⟩ : ∃ tail, emitCall (hintArgument expr)
      (' ' :: (closing ++ '}' :: '}' :: rest)) = ')' :: tail := ⟨_, rfl⟩
  have htext : '(' :: (expr ++ ')' :: tail) = run ++ x :: (left ++ tail) := by
    have happend := congrArg (· ++ tail) hsplit
    simpa using happend
  rw [htail, htext] at hbegin
  have hread : ReadsRun ws fuel 0 0 0 ⟨before, run ++ x :: (left ++ tail), c.line⟩ run
      (x :: (left ++ tail)) := by
    refine readsRun (isPlain_of_isClosing hclosing) hrun
      (fun front back hfront hback _ hplace => ?_) fuel rfl
    have hparens : '(' :: expr ++ [')'] = front ++ (back ++ x :: left) := by
      rw [hsplit, hfront, List.append_assoc]
    have hend := hclear.tagEnd?_parenthesized hparens (by simp) hplace tail
    simpa using hend
  obtain ⟨tokens, d, hnest, hstops | ⟨rfl, fuel', c', -, hc', hgoes⟩⟩ := hread
  · exact ⟨tokens, d, [], hnest, .inl rfl, by rw [hbegin, List.append_nil, ← hstops]; rfl⟩
  · cases fuel' with
    | zero =>
        refine ⟨tokens, 1, [], hnest, .inl rfl, ?_⟩
        rw [hbegin]
        exact congrArg _ hgoes
    | succ fuel' =>
        have hend : tagEnd? false (x :: (left ++ tail)) = none :=
          hclear.tagEnd?_parenthesized hsplit (List.cons_ne_nil x left) hrun tail
        obtain ⟨s, later, hs, hlater⟩ := lexTag_closer ws hclosing hc' hend fuel' (0 + 0 : Nat)
        refine ⟨tokens ++ [⟨.symbol s, c'.line⟩], 0, later.lexemes, ?_, .inr rfl, ?_⟩
        · rw [nestAll_append, hnest, Option.bind_some, nestAll]
          exact congrArg (Option.bind · _) hs
        · rw [hbegin, List.append_assoc]
          exact congrArg _ (hgoes.trans (congrArg (tokens ++ ·.lexemes) hlater))

end Template.Lexer

namespace Instrument

open Template.Lexer Template.Parser

/-- A template that the engine reads from a tag on: the position of the lexer in front of the tag,
with enough steps left to go through the source, and the parser, which makes statements of the
tokens. -/
structure TagReading (tag : List Char) where
  ws : Whitespace
  position : Cursor
  rest : List Char
  steps : Nat
  start : ParserState
  fuel : Nat
  stops : List String
  stmts : List Stmt
  final : ParserState
  position_rest : position.rest = tag ++ rest
  length_le_steps : position.rest.length ≤ steps
  start_rest : start.rest = tagLexemes ws steps position
  body_eq : body fuel stops start = .ok (stmts, final)

variable {opening closing expr : List Char}

/-- The tag is a statement that emits an operand, and the operand is read from all that stands
between the parentheses: the tokens of the tag are those of the operand and those of the call. -/
def TagReading.EmitsWhole {tag : List Char} (r : TagReading tag) (expr : List Char) : Prop :=
  ∃ inner line steps trim behind e more,
    behind.rest = r.rest ∧
      r.start.rest = ⟨.expressionStart, r.position.line⟩ :: ⟨.symbol "(", r.position.line⟩ ::
        (inner ++ (onLine line (emitTokens (hintToken expr) ++ [.expressionEnd]) ++
          (lexText r.ws steps trim behind).lexemes)) ∧
      r.stmts = .emit r.position.line e :: more ∧ EmitsOperand inner e

theorem nestAll_arguments (expr : List Char) (line : Nat) :
    nestAll (onLine line [.name scopeName, .symbol ",", hintToken expr]) 1 = some 1 := by
  have hhint : (hintToken expr).nest 1 = some 1 := by
    rw [hintToken]
    cases extractNameHint expr <;> rfl
  have hcomma : nestAll (onLine line [.name scopeName, .symbol ",", hintToken expr]) 1 =
      ((hintToken expr).nest 1).bind (nestAll []) := rfl
  rw [hcomma, hhint]
  rfl

/-- The emit filter is applied to the whole of an expression that is balanced. -/
theorem TagReading.emitsWhole (hexpr : Balanced expr) (hopening : IsMark opening)
    (hclosing : IsMark closing) (r : TagReading (emissionTag opening expr closing)) :
    r.EmitsWhole expr := by
  obtain ⟨inner, d, hnest, hstops | ⟨rfl, line, steps, trim, behind, hbehind, hgoes⟩⟩ :=
    tagLexemes_balanced r.ws hexpr hopening hclosing r.position_rest r.length_le_steps
  · rw [← r.start_rest] at hstops
    obtain ⟨fuel, e, t, endLine, after, more, he, ht, -⟩ := exists_of_body r.body_eq hstops
    have hopen : nestAll (⟨.symbol "(", r.position.line⟩ :: inner) 1 = some (d + 1) :=
      nestAll_add hnest 1
    exact (not_expr_of_nestAll hopen (.inl rfl) (List.append_nil _).symm he ht).elim
  · rw [← r.start_rest] at hgoes
    obtain ⟨fuel, e, t, endLine, after, more, he, ht, hstmts⟩ := exists_of_body r.body_eq hgoes
    have htokens (later : List Lexeme) : ⟨.symbol "(", r.position.line⟩ :: (inner ++
          (onLine line (emitTokens (hintToken expr) ++ [.expressionEnd]) ++ later)) =
        (⟨.symbol "(", r.position.line⟩ :: inner ++ ⟨.symbol ")", line⟩ :: ⟨.symbol "|", line⟩ ::
          ⟨.name emitName, line⟩ :: ⟨.symbol "(", line⟩ ::
          onLine line [.name scopeName, .symbol ",", hintToken expr] ++ [⟨.symbol ")", line⟩]) ++
          ⟨.expressionEnd, line⟩ :: later := by
      simp [onLine, emitTokens]
    have hemits : EmitsOperand inner e :=
      (emitsOperand_expr hnest (nestAll_arguments expr line) fuel _ e t (htokens _) he).1
    exact ⟨inner, line, steps, trim, behind, e, more, hbehind, hgoes, hstmts, hemits⟩

/-- The engine finds no expression in a tag with too many closing brackets. -/
theorem isEmpty_tagReading (hclear : Clear expr)
    (hexpr : (Place.outside 0).after ('(' :: expr ++ [')']) = none) (hopening : IsMark opening) :
    IsEmpty (TagReading (emissionTag opening expr closing)) := by
  refine ⟨fun r => ?_⟩
  obtain ⟨tokens, d, more, hnest, hmore, hlexemes⟩ :=
    tagLexemes_surplus r.ws hclear hexpr hopening r.position_rest r.length_le_steps
  rw [← r.start_rest] at hlexemes
  obtain ⟨fuel, e, t, endLine, after, -, he, ht, -⟩ := exists_of_body r.body_eq hlexemes
  exact not_expr_of_nestAll hnest hmore rfl he ht

/-- As many brackets are closed as are opened, and none before it is opened. -/
def Matched (text : List Char) : Prop :=
  (∀ front, front <+: text → closers front ≤ openers front) ∧ closers text = openers text

/-- The parentheses around a text belong together: from the first one to the second one more brackets
have been opened than closed. -/
def Enclosed (text : List Char) : Prop :=
  (∀ front, front <+: text → closers ('(' :: front) < openers ('(' :: front)) ∧
    closers ('(' :: text ++ [')']) = openers ('(' :: text ++ [')'])

theorem Matched.enclosed (h : Matched expr) (hliteral : LiteralPlace.outside.after expr = .outside) :
    Enclosed expr := by
  obtain ⟨hfront, hopeners, hclosers⟩ := counts_parenthesized hliteral
  refine ⟨fun front hprefix => ?_, ?_⟩
  · rw [(hfront front).1, (hfront front).2]
    exact Nat.lt_succ_of_le (h.1 front hprefix)
  · rw [hopeners, hclosers, h.2]

/-- The parentheses that are written around an expression hold all of it. The expression of every tag
ends outside string literals. It closes the brackets that it opens, and no others, so that the
parentheses belong together and the engine applies the emit filter to the whole of it; or it has more
closing brackets than opening ones, and there is no way for the engine to read the tag. -/
theorem parentheses_instrument {source out : List Char} (h : instrument source = .ok out) :
    ∃ parts, partsFrom source.length 1 source = .ok parts ∧ out = parts.flatMap Part.written ∧
      ∀ inner, .expression inner ∈ parts →
        let expr := expressionOf inner
        let tag := emissionTag (openingOf inner) expr (closingOf inner)
        (Part.expression inner).written = tag ∧
          LiteralPlace.outside.after expr = .outside ∧
          (Matched expr ∧ Enclosed expr ∧ (∀ r : TagReading tag, r.EmitsWhole expr) ∨
            openers expr < closers expr ∧ IsEmpty (TagReading tag)) := by
  obtain ⟨-, parts, hparts, rfl⟩ := exists_parts_of_ok h
  refine ⟨parts, hparts, rfl, fun inner hinner => ?_⟩
  have hstands := stands_of_mem (Nat.le_refl _) hparts _ hinner
  obtain ⟨hclamped, hclear⟩ := hstands.clamped_expressionOf
  obtain ⟨hliteral, hcounts⟩ := counts_of_clamped hclamped
  refine ⟨hstands.written_expression.2, hliteral, ?_⟩
  rcases hcounts with hbalanced | hsurplus
  · have hmatched : Matched (expressionOf inner) := hbalanced.counts.2
    exact .inl ⟨hmatched, hmatched.enclosed hliteral,
      TagReading.emitsWhole hbalanced (isMark_openingOf inner) (isMark_closingOf inner)⟩
  · exact .inr ⟨hsurplus, isEmpty_tagReading hclear
      (after_parenthesized_eq_none hliteral hsurplus) (isMark_openingOf inner)⟩

/-- The engine emits an expression with a string literal that looks like the end of a tag as a whole,
and does not read a tag with a closing parenthesis of its own. -/
theorem parentheses_instrument_literal :
    let source := "\x7b\x7b a[\"\x7d\x7d\"] \x7d\x7d\x7b\x7b b) \x7d\x7d".toList
    let expr := "a[\"\x7d\x7d\"]".toList
    ∃ out, instrument source = .ok out ∧
      (∃ r : TagReading (emissionTag [] expr []), r.EmitsWhole expr) ∧
      IsEmpty (TagReading (emissionTag [] "b)".toList [])) := by
  intro source expr
  let inner := ' ' :: expr ++ [' ']
  have hparts : partsFrom source.length 1 source =
      .ok [.expression inner, .expression " b) ".toList] := by decide +kernel
  have hout : instrument source = .ok ((Part.expression inner).written ++
      (Part.expression " b) ".toList).written) := by decide +kernel
  let start : ParserState :=
    { rest := tagLexemes {} 200 (.start (emissionTag [] expr [])), fault := none }
  have hreads : (body 100 [] start).toOption.isSome = true := by decide +kernel
  obtain ⟨parts, hparts', -, htags⟩ := parentheses_instrument hout
  cases hparts.symm.trans hparts'
  obtain ⟨-, -, hmatched⟩ := htags inner List.mem_cons_self
  obtain ⟨-, -, hsurplus⟩ := htags " b) ".toList (List.mem_cons_of_mem _ List.mem_cons_self)
  refine ⟨_, hout, ?_, ?_⟩
  · obtain ⟨-, -, hwhole⟩ | ⟨hlt, -⟩ := hmatched
    · rcases hbody : body 100 [] start with fault | ⟨stmts, final⟩
      · rw [hbody] at hreads
        cases hreads
      let r : TagReading (emissionTag [] expr []) :=
        { ws := {}, position := .start (emissionTag [] expr []), rest := [], steps := 200, start,
          fuel := 100, stops := [], stmts, final, position_rest := (List.append_nil _).symm,
          length_le_steps := by decide +kernel, start_rest := rfl, body_eq := hbody }
      exact ⟨r, hwhole r⟩
    · exact absurd hlt (by decide +kernel)
  · obtain ⟨⟨-, hcount⟩, -⟩ | ⟨-, hempty⟩ := hsurplus
    · exact absurd hcount (by decide +kernel)
    · exact hempty

end Instrument

end QueryTemplate
