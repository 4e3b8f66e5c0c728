import QueryTemplate.Proofs.FragmentTokens
import QueryTemplate.Proofs.Nesting
import QueryTemplate.Proofs.TagTokens

/-!
The tokens of a tag that was made to end in the emit filter. In a run of text without the end of the
tag the lexer either stops or goes on behind it, and its tokens open and close the brackets that the
run does: the parser, which counts brackets in tokens, and the count of brackets in the text agree.
What is written around the expression is always read as the same tokens.
-/

namespace QueryTemplate.Template.Lexer

open Instrument

variable {ws : Whitespace} {depth last : Nat} {stop : Char} {run more rest : List Char}

theorem nestSymbol_of_balance {s : String} {d d' : Nat} (h : (d' : Int) = d + balance s) :
    nestSymbol s (d + 1) = some (d' + 1) := by
  rw [balance] at h
  rw [nestSymbol]
  split
  · rw [if_pos ‹_›] at h
    rw [show d' = d + 1 by omega]
  rw [if_neg ‹_›] at h
  split
  · rw [if_pos ‹_›] at h
    rw [show d = d' + 1 by omega]
  · rw [if_neg ‹_›] at h
    rw [show d' = d by omega]

/-- The parser counts the brackets that the lexer counts. -/
theorem nest_of_tagToken {c : Cursor} {token : Token} {d d' : Nat}
    (h : tagToken c = .ok (token, rest)) (hd : (d' : Int) = d + opened token) :
    token.nest (d + 1) = some (d' + 1) := by
  have hsame (hopened : opened token = 0) : d' = d := by omega
  rcases tagToken_cases h with ⟨s, rfl, -⟩ | ⟨-, -, -, value, rfl, -⟩ | ⟨-, htoken, -⟩
  · exact nestSymbol_of_balance hd
  · rw [hsame rfl]
    rfl
  · rcases htoken with (⟨n, rfl⟩ | ⟨digits, exponent, rfl⟩) | ⟨name, rfl⟩ <;>
      rw [hsame rfl] <;> rfl

theorem Cursor.rest_moveTo {c : Cursor} {passed : List Char} (h : c.rest = passed ++ rest) :
    (c.moveTo rest).rest = rest := by
  simp [moveTo, advance, h]

/-- A tag does not end in a run, with the brackets that are open in front of the run and in it. -/
def Goes (around depth : Nat) (run rest : List Char) : Prop :=
  ∀ front back, run = front ++ back → back ≠ [] → around = 0 →
    (Place.outside depth).after front = some (.outside 0) → tagEnd? false (back ++ rest) = none

theorem Goes.of_append {around depth' : Nat} {passed left : List Char}
    (h : Goes around depth (passed ++ left) rest)
    (hpassed : (Place.outside depth).after passed = some (.outside depth')) :
    Goes around depth' left rest := by
  intro front back hleft hback haround hfront
  refine h (passed ++ front) back (by rw [hleft, List.append_assoc]) hback haround ?_
  rw [Place.after_append_of_eq hpassed, hfront]

/-- The tokens of a run of text, with the brackets that are open in front of it and in it: the lexer
stops in the run, or it goes on behind it. -/
def ReadsRun (ws : Whitespace) (fuel around depth last : Nat) (c : Cursor)
    (run rest : List Char) : Prop :=
  ∃ tokens d, nestAll tokens (depth + 1) = some d ∧
    ((lexTag ws fuel false (around + depth : Nat) c).lexemes = tokens ∨
      d = last + 1 ∧ ∃ fuel' c', fuel ≤ fuel' + run.length ∧ c'.rest = rest ∧
        (lexTag ws fuel false (around + depth : Nat) c).lexemes =
          tokens ++ (lexTag ws fuel' false (around + last : Nat) c').lexemes)

variable {around : Nat}

/-- A step of the lexer takes a part of the run. -/
theorem ReadsRun.of_step {fuel depth' : Nat} {c c' : Cursor} {passed left : List Char}
    {tokens : List Lexeme} (h : ReadsRun ws fuel around depth' last c' left rest)
    (hpassed : passed ≠ []) (hnest : nestAll tokens (depth + 1) = some (depth' + 1))
    (hstep : (lexTag ws (fuel + 1) false (around + depth : Nat) c).lexemes =
      tokens ++ (lexTag ws fuel false (around + depth' : Nat) c').lexemes) :
    ReadsRun ws (fuel + 1) around depth last c (passed ++ left) rest := by
  obtain ⟨more, d, hmore, hcase⟩ := h
  refine ⟨tokens ++ more, d, by rw [nestAll_append, hnest]; exact hmore, ?_⟩
  rcases hcase with hstops | ⟨hd, fuel', c'', hfuel, hc'', heq⟩
  · exact .inl (by rw [hstep, hstops])
  · refine .inr ⟨hd, fuel', c'', ?_, hc'', by rw [hstep, heq, List.append_assoc]⟩
    have hpositive := List.length_pos_iff.mpr hpassed
    rw [List.length_append]
    omega

/-- A step of the lexer in a run in which the tag does not end: it stops, or it takes white space or
a token off the run, with the brackets that are open behind it. -/
theorem lexTag_goes {fuel : Nat} {c : Cursor} {x : Char} (hstop : Literal.isPlain stop = false)
    (hrun : (Place.outside depth).after (x :: run) = some (.outside last))
    (hend : ((around + depth : Nat) : Int) = 0 → tagEnd? false c.rest = none)
    (hc : c.rest = x :: run ++ stop :: more) :
    (lexTag ws (fuel + 1) false (around + depth : Nat) c).lexemes = [] ∨
      ∃ (passed left : List Char) (depth' : Nat) (tokens : List Lexeme),
        x :: run = passed ++ left ∧ passed ≠ [] ∧
        (Place.outside depth).after passed = some (.outside depth') ∧
        nestAll tokens (depth + 1) = some (depth' + 1) ∧
        (lexTag ws (fuel + 1) false (around + depth : Nat) c).lexemes = tokens ++
          (lexTag ws fuel false (around + depth' : Nat) (c.moveTo (left ++ stop :: more))).lexemes := by
  cases hspace : Text.isAsciiSpace x with
  | true =>
      obtain ⟨passed, left, htext, hpassed, hdrop, hafter⟩ :=
        exists_dropWhile_isAsciiSpace hstop hspace run more depth
      refine .inr ⟨passed, left, depth, [], htext, hpassed, hafter, rfl, ?_⟩
      rw [lexTag_passes hend hc hspace, hc, List.cons_append, hdrop]
      rfl
  | false =>
      rw [lexTag_reads hend hc hspace]
      cases htoken : tagToken c with
      | error fault => exact .inl rfl
      | ok found =>
          obtain ⟨token, rest⟩ := found
          obtain ⟨passed, left, depth', htext, hpassed, rfl, hdepth, hafter⟩ :=
            tagToken_balanced hstop hrun (List.cons_ne_nil x run) hc htoken
          have hnest : nestAll [⟨token, c.line⟩] (depth + 1) = some (depth' + 1) := by
            rw [nestAll, nest_of_tagToken htoken hdepth]
            rfl
          have hopen : ((around + depth : Nat) : Int) + opened token = (around + depth' : Nat) := by
            omega
          refine .inr ⟨passed, left, depth', _, htext, hpassed, hafter, hnest, ?_⟩
          dsimp only
          rw [hopen]
          rfl

/-- Reading a run of text in a tag that does not end in it. The induction is on the steps of the
lexer, each of which takes white space or a token off the run. -/
theorem readsRun (hstop : Literal.isPlain stop = false)
    (hrun : (Place.outside depth).after run = some (.outside last))
    (hgoes : Goes around depth run (stop :: more)) (fuel : Nat) {c : Cursor}
    (hc : c.rest = run ++ stop :: more) : ReadsRun ws fuel around depth last c run (stop :: more) := by
  induction fuel generalizing depth run c with
  | zero => exact ⟨[], _, rfl, .inl rfl⟩
  | succ fuel ih =>
      cases run with
      | nil =>
          cases hrun
          exact ⟨[], _, rfl, .inr ⟨rfl, fuel + 1, c, Nat.le_add_right _ _, hc, rfl⟩⟩
      | cons x run =>
          have hend : ((around + depth : Nat) : Int) = 0 → tagEnd? false c.rest = none := by
            intro hzero
            obtain ⟨haround, rfl⟩ : around = 0 ∧ depth = 0 := by omega
            rw [hc]
            exact hgoes [] (x :: run) rfl (List.cons_ne_nil _ _) haround rfl
          rcases lexTag_goes hstop hrun hend hc with hstops |
            ⟨passed, left, depth', tokens, htext, hpassed, hafter, hnest, hstep⟩
          · exact ⟨[], _, rfl, .inl hstops⟩
          · rw [htext, List.append_assoc] at hc
            rw [htext] at hrun hgoes ⊢
            rw [Place.after_append_of_eq hafter] at hrun
            exact (ih hrun (hgoes.of_append hafter) (Cursor.rest_moveTo hc)).of_step hpassed hnest
              hstep

/-! ### What is written around an expression -/

/-- A tag ends with its delimiter, and a mark for white space control in front of it. -/
theorem exists_of_tagEnd? {text : List Char} {end_ : Control}
    (h : tagEnd? false text = some (end_, rest)) :
    ∃ mark, IsMark mark ∧ text = mark ++ '}' :: '}' :: rest := by
  rw [tagEnd?.eq_def] at h
  simp only [Bool.false_eq_true, if_false] at h
  split at h
  · cases h
  split at h
  · rename_i x text hcontrol
    split at h
    · rename_i hhead
      cases h
      have htext := Text.dropHead?_eq_some_iff.mp hhead
      exact ⟨[x], .inr ⟨x, hcontrol, rfl⟩, congrArg (x :: ·) htext⟩
    · cases h
  · obtain ⟨rest, hhead, heq⟩ := Option.map_eq_some_iff.mp h
    cases heq
    have htext := Text.dropHead?_eq_some_iff.mp hhead
    exact ⟨[], .inl rfl, htext⟩

theorem tagEnd?_mark {mark : List Char} (h : IsMark mark) (rest : List Char) :
    ∃ end_, tagEnd? false (mark ++ '}' :: '}' :: rest) = some (end_, rest) := by
  rcases isMark_iff.mp h with rfl | rfl | rfl <;> exact ⟨_, rfl⟩

theorem isPlain_of_isClosing {x : Char} (h : isClosing x = true) : Literal.isPlain x = false := by
  simp only [isClosing, Bool.or_eq_true, decide_eq_true_eq] at h
  rcases h with (rfl | rfl) | rfl <;> rfl

/-- A closing bracket that does not end a tag is a token. -/
theorem lexTag_closer (ws : Whitespace) {x : Char} (hx : isClosing x = true) {c : Cursor}
    {text : List Char} (hc : c.rest = x :: text) (hend : tagEnd? false (x :: text) = none)
    (fuel : Nat) (depth : Int) :
    ∃ s later, nestSymbol s 1 = some 0 ∧
      lexTag ws (fuel + 1) false depth c = put (.symbol s) c.line later := by
  obtain ⟨before, _, line⟩ := c
  subst hc
  simp only [isClosing, Bool.or_eq_true, decide_eq_true_eq] at hx
  rcases hx with (rfl | rfl) | rfl
  all_goals exact ⟨_, _, rfl, lexTag_symbol rfl hend rfl fuel⟩

variable {opening closing expr : List Char}

/-- The tokens of an expression tag at a position, and of what follows it. -/
def tagLexemes (ws : Whitespace) (fuel : Nat) (c : Cursor) : List Lexeme :=
  (lexMarker ws fuel .expression (control (c.rest.drop 2).head?) c).lexemes

/-- The beginning of a tag, up to the parenthesis in front of the expression. -/
theorem tagLexemes_begin (ws : Whitespace) (hopening : IsMark opening) {text : List Char} {c : Cursor}
    (hc : c.rest = '{' :: '{' :: (opening ++ ' ' :: '(' :: text)) (fuel : Nat) :
    ∃ before, tagLexemes ws (fuel + 2) c =
      ⟨.expressionStart, c.line⟩ :: (lexTag ws fuel false 0 ⟨before, '(' :: text, c.line⟩).lexemes := by
  have hadvance : ∃ before, c.advance (if control (c.rest.drop 2).head? = .default then 2 else 3) =
      ⟨before, ' ' :: '(' :: text, c.line⟩ := by
    rw [Cursor.advance, hc]
    rcases isMark_iff.mp hopening with rfl | rfl | rfl <;> exact ⟨_, rfl⟩
  obtain ⟨before, hadvance⟩ := hadvance
  refine ⟨' ' :: before, ?_⟩
  rw [tagLexemes, lexMarker]
  simp only [hadvance]
  rw [lexTag_space (Text.beginsOutside_cons rfl _)]
  rfl

/-- The end of a tag, behind the call of the emit filter. -/
theorem lexTag_closing (ws : Whitespace) (hclosing : IsMark closing) (before rest : List Char)
    (line fuel : Nat) :
    ∃ trim c, c.rest = rest ∧
      lexTag ws (fuel + 2) false 0 ⟨before, ' ' :: (closing ++ '}' :: '}' :: rest), line⟩ =
        put .expressionEnd line (lexText ws fuel trim c) := by
  obtain ⟨end_, hend⟩ := tagEnd?_mark hclosing rest
  have hbegins : Text.BeginsOutside Text.isAsciiSpace (closing ++ '}' :: '}' :: rest) := by
    rcases isMark_iff.mp hclosing with rfl | rfl | rfl <;> exact Text.beginsOutside_cons rfl _
  refine ⟨end_ = .remove, (⟨' ' :: before, closing ++ '}' :: '}' :: rest, line⟩ : Cursor).moveTo rest,
    ?_, ?_⟩
  · have hpassed : closing ++ '}' :: '}' :: rest = (closing ++ ['}', '}']) ++ rest := by simp
    exact Cursor.rest_moveTo hpassed
  · rw [lexTag_space hbegins, lexTag]
    simp [hend]

/-- The token that the second argument of the emit filter is. -/
def hintToken (expr : List Char) : Token :=
  match extractNameHint expr with
  | some hint => .string (String.ofList hint)
  | none => .name "none"

theorem readsArgument_hint (ws : Whitespace) (expr : List Char) :
    ReadsArgument ws (hintArgument expr) (hintToken expr) := by
  rw [hintArgument, hintToken]
  cases hhint : extractNameHint expr with
  | none =>
      have hnone : Text.isIdentifier "none".toList = true := by decide
      have hname := readsArgument_name ws hnone
      rwa [String.ofList_toList] at hname
  | some hint =>
      obtain ⟨hquote, hescape⟩ := not_mem_of_extractNameHint hhint
      have hline : '\n' ∉ hint := fun hmem => by
        rcases isPart_of_extractNameHint hhint _ hmem with h | h <;> exact absurd h (by decide)
      exact readsArgument_string ws hquote hescape (List.count_eq_zero.mpr hline)

theorem emissionTag_append (opening expr closing rest : List Char) :
    emissionTag opening expr closing ++ rest = '{' :: '{' :: (opening ++ ' ' :: '(' :: (expr ++
      emitCall (hintArgument expr) (' ' :: (closing ++ '}' :: '}' :: rest)))) := by
  have hbar : ") | ".toList = [')', ' ', '|', ' '] := rfl
  have hcomma : ", ".toList = [',', ' '] := rfl
  simp only [emissionTag, emissionOf, emitCall, hbar, hcomma, List.append_assoc, List.cons_append,
    List.nil_append]

/-- The tokens of a tag with a balanced expression: the lexer stops in the expression, or the tag has
the tokens of the expression in parentheses and those of the call, and the lexer goes on behind it. -/
theorem tagLexemes_balanced (ws : Whitespace) (hexpr : Balanced expr) (hopening : IsMark opening)
    (hclosing : IsMark closing) {c : Cursor} (hc : c.rest = emissionTag opening expr closing ++ rest)
    {fuel : Nat} (hfuel : c.rest.length ≤ fuel) :
    ∃ inner d, nestAll inner 1 = some d ∧
      (tagLexemes ws fuel c =
          ⟨.expressionStart, c.line⟩ :: ⟨.symbol "(", c.line⟩ :: inner ∨
        d = 1 ∧ ∃ line fuel' trim c', c'.rest = rest ∧
          tagLexemes ws fuel c = ⟨.expressionStart, c.line⟩ :: ⟨.symbol "(", c.line⟩ ::
            (inner ++ (onLine line (emitTokens (hintToken expr) ++ [.expressionEnd]) ++
              (lexText ws fuel' trim c').lexemes))) := by
  let later := ' ' :: (closing ++ '}' :: '}' :: rest)
  have hlength : expr.length + 40 ≤ c.rest.length := by
    have hemit : emitName.toList.length = 17 := by decide
    have hscope : scopeName.toList.length = 18 := by decide
    rw [hc, emissionTag_append, emitCall]
    simp only [List.length_cons, List.length_append, hemit, hscope]
    omega
  obtain ⟨fuel, rfl⟩ : ∃ n, fuel = n + 1 + 2 := ⟨fuel - 3, by omega⟩
  rw [emissionTag_append] at hc
  obtain ⟨before, hbegin⟩ := tagLexemes_begin ws hopening hc (fuel + 1)
  have hbegin : tagLexemes ws (fuel + 1 + 2) c = ⟨.expressionStart, c.line⟩ ::
      ⟨.symbol "(", c.line⟩ :: (lexTag ws fuel false (1 + 0 : Nat)
        ⟨'(' :: before, expr ++ emitCall (hintArgument expr) later, c.line⟩).lexemes := by
    rw [hbegin, lexTag_symbol rfl rfl rfl]
    rfl
  -- Inside the parentheses that are written around the expression, the tag cannot end.
  have hread : ReadsRun ws fuel 1 0 0
      ⟨'(' :: before, expr ++ emitCall (hintArgument expr) later, c.line⟩ expr
      (emitCall (hintArgument expr) later) :=
    readsRun rfl hexpr (fun _ _ _ _ h => by cases h) fuel rfl
  obtain ⟨inner, d, hnest, hstops | ⟨rfl, fuel', c', hfuel', hc', hgoes⟩⟩ := hread
  · exact ⟨inner, d, hnest, .inl (by rw [hbegin, hstops])⟩
  · obtain ⟨n, rfl⟩ : ∃ n, fuel' = n + 2 + 11 := ⟨fuel' - 13, by omega⟩
    obtain ⟨before', text, line⟩ := c'
    subst hc'
    obtain ⟨before'', hcall⟩ :=
      lexTag_emitCall (readsArgument_hint ws expr) before' later line (n + 2)
    obtain ⟨trim, c', hc', hclose⟩ := lexTag_closing ws hclosing before'' rest line n
    refine ⟨inner, 1, hnest, .inr ⟨rfl, line, n, trim, c', hc', ?_⟩⟩
    have hone : ((1 + 0 : Nat) : Int) = 1 := rfl
    rw [hbegin, hgoes, hone, hcall, hclose, Fragment.putAll_eq]
    simp only [put, onLine, List.map_append, List.append_assoc]
    rfl

end QueryTemplate.Template.Lexer
