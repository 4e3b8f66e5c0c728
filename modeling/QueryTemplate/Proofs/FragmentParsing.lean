import QueryTemplate.Proofs.FragmentTokens
import QueryTemplate.Proofs.Parsing

/-!
What an instrumented template without control flow is read as: the text between its tags, and for
each tag an expression that ends in the emit filter, with the name of the variable as its hint.
-/

namespace QueryTemplate

open Template Template.Parser

namespace TagKind

/-- The expression of a tag, without the emit filter. -/
def operand (kind : TagKind) (line : Nat) (name : String) : Expr :=
  match kind.filter? with
  | none => .var line name
  | some filter => .filter line (some (.var line name)) filter []

/-- The expression of an instrumented tag. -/
def emitted (kind : TagKind) (line : Nat) (name : String) : Expr :=
  .filter line (some (kind.operand line name)) emitName
    [(.positional, .var line scopeName), (.positional, .const line (.str name))]

end TagKind

namespace Template.Parser

variable {s : ParserState} {token : Token} {line last : Nat} {rest : List Lexeme}

theorem literal?_of_not_mem {name : String} (h : name ∉ expressionWords) :
    literal? (.name name) = none := by
  unfold literal?
  split <;> simp_all [expressionWords]

theorem token_ne_not {name : String} (h : name ∉ expressionWords) :
    Token.name name ≠ .name "not" := by
  rintro ⟨⟩
  exact h (by decide)

theorem expr_var {name : String} (hname : name ∉ expressionWords)
    (h : endsExpression token = true) (hdepth : s.depth + 1 < maxDepth) (fuel : Nat)
    (before : Nat) :
    expr (fuel + 13) (s.on (⟨.name name, line⟩ :: ⟨token, line⟩ :: rest) before) =
      .ok (.var line name, s.on (⟨token, line⟩ :: rest) line) :=
  expr_of_primary h (token_ne_not hname) (by simp) hdepth
    (primary_name (literal?_of_not_mem hname) _)

theorem expr_string (text : String) (h : endsExpression token = true)
    (hdepth : s.depth + 1 < maxDepth) (fuel : Nat) (before : Nat) :
    expr (fuel + 14) (s.on (⟨.string text, line⟩ :: ⟨token, line⟩ :: rest) before) =
      .ok (.const line (.str text), s.on (⟨token, line⟩ :: rest) line) :=
  expr_of_primary h (by simp) (by simp) hdepth (primary_string h _)

/-- The variable of a tag with its filter, in front of the closing parenthesis. -/
theorem expr_operand (kind : TagKind) {name : String} (hname : name ∉ expressionWords)
    (hdepth : s.depth + 1 < maxDepth) (fuel before : Nat) :
    expr (fuel + 13) (s.on (onLine line (.name name :: kind.suffixTokens) ++
        ⟨.symbol ")", line⟩ :: rest) before) =
      .ok (kind.operand line name, s.on (⟨.symbol ")", line⟩ :: rest) line) := by
  -- With a filter the operand is the variable in front of it, and the filter has no arguments.
  have hfilter (filter : String) :
      expr (fuel + 13) (s.on (⟨.name name, line⟩ :: ⟨.symbol "|", line⟩ :: ⟨.name filter, line⟩ ::
          ⟨.symbol ")", line⟩ :: rest) before) =
        .ok (.filter line (some (.var line name)) filter [],
          s.on (⟨.symbol ")", line⟩ :: rest) line) := by
    refine expr_of_operand rfl (token_ne_not hname) (Nat.lt_of_succ_lt hdepth) ?_
    rw [level_operand (by simp) hdepth rfl (primary_name (literal?_of_not_mem hname) fuel),
      filters_bar (by decide) (by decide), filters_of_ends rfl]
  cases kind with
  | plain => exact expr_var hname rfl hdepth fuel before
  | identifier => exact hfilter "identifier"
  | inclause => exact hfilter "inclause"

/-- The arguments of the emit filter. -/
theorem arguments_emit (name : String) (hdepth : s.depth + 1 < maxDepth) (fuel before : Nat) :
    arguments (fuel + 17) (s.on (onLine line [.symbol "(", .name scopeName, .symbol ",",
        .string name, .symbol ")"] ++ rest) before) =
      .ok ([(.positional, .var line scopeName), (.positional, .const line (.str name))],
        s.on rest line) := by
  have hend : moreArguments (fuel + 14) false false
      (s.on (⟨.symbol ")", line⟩ :: rest) line) = .ok ([], s.on rest line) :=
    moreArguments_end _ _ _
  have hhint : moreArguments (fuel + 15) false false
      (s.on (⟨.symbol ",", line⟩ :: ⟨.string name, line⟩ :: ⟨.symbol ")", line⟩ :: rest) line) =
        .ok ([(.positional, .const line (.str name))], s.on rest line) := by
    rw [moreArguments_next (by rfl)]
    exact argumentsFrom_positional (by rfl) (by simp) (expr_string name rfl hdepth _ _) hend
  simp only [onLine, List.map_cons, List.map_nil, List.cons_append, List.nil_append]
  rw [arguments_on, moreArguments_first (by rfl)]
  exact argumentsFrom_positional (by rfl) (by simp)
    (expr_var (by decide) rfl hdepth (fuel + 2) line) hhint

/-- The expression of an instrumented tag, in front of its closing delimiter. -/
theorem expr_tag (kind : TagKind) {name : String} (hname : name ∉ expressionWords)
    (hdepth : s.depth + 3 < maxDepth) (fuel before : Nat) :
    expr (fuel + 29) (s.on (onLine line (kind.tokens name) ++ rest) before) =
      .ok (kind.emitted line name, s.on (⟨.expressionEnd, line⟩ :: rest) line) := by
  have htokens : onLine line (kind.tokens name) ++ rest =
      ⟨.symbol "(", line⟩ :: ⟨.name name, line⟩ :: (onLine line kind.suffixTokens ++
        ⟨.symbol ")", line⟩ :: ⟨.symbol "|", line⟩ :: ⟨.name emitName, line⟩ ::
          (onLine line [.symbol "(", .name scopeName, .symbol ",", .string name, .symbol ")"] ++
            ⟨.expressionEnd, line⟩ :: rest)) := by
    simp [TagKind.tokens, TagKind.emissionTokens, onLine]
  have hdeeper : s.deeper.depth + 1 < maxDepth := Nat.lt_of_succ_lt hdepth
  have hinner (more : List Lexeme) :
      primary (fuel + 17) (s.deeper.deeper.on (⟨.symbol "(", line⟩ :: ⟨.name name, line⟩ ::
          (onLine line kind.suffixTokens ++ ⟨.symbol ")", line⟩ :: more)) before) =
        .ok (kind.operand line name, s.deeper.deeper.on more line) :=
    primary_parenthesized (by simp) (expr_operand kind hname hdepth (fuel + 3) line)
  have hargs : arguments (fuel + 17) (s.deeper.on (onLine line [.symbol "(", .name scopeName,
      .symbol ",", .string name, .symbol ")"] ++ ⟨.expressionEnd, line⟩ :: rest) line) =
        .ok (_, s.deeper.on (⟨.expressionEnd, line⟩ :: rest) line) :=
    arguments_emit name hdeeper fuel line
  rw [htokens]
  refine expr_of_operand rfl (by simp) (by omega) ?_
  rw [level_operand (by simp) (Nat.lt_of_succ_lt hdeeper) rfl (hinner _)]
  refine (filters_bar_arguments hargs _).trans ?_
  exact filters_of_ends rfl _ _

/-! ### Bodies -/

theorem body_data {fuel : Nat} {stops : List String} {text : String} {stmts : List Stmt}
    {t : ParserState} (h : body fuel stops (s.on rest line) = .ok (stmts, t)) :
    body (fuel + 1) stops (s.on (⟨.data text, line⟩ :: rest) last) =
      .ok (.text line text :: stmts, t) := by
  rw [body, bind_of_ok next_on]
  simp only
  rw [bind_of_ok h]
  rfl

theorem body_expression {fuel : Nat} {stops : List String} {e : Expr} {tokens : List Lexeme}
    {endLine before : Nat} {stmts : List Stmt} {t : ParserState}
    (hexpr : expr fuel (s.on tokens line) = .ok (e, s.on (⟨.expressionEnd, endLine⟩ :: rest) last))
    (h : body fuel stops (s.on rest endLine) = .ok (stmts, t)) :
    body (fuel + 1) stops (s.on (⟨.expressionStart, line⟩ :: tokens) before) =
      .ok (.emit line e :: stmts, t) := by
  rw [body, bind_of_ok next_on]
  simp only
  rw [bind_of_ok hexpr, bind_of_ok (expect_on _), bind_of_ok h]
  rfl

end Template.Parser

namespace Fragment

/-- The statement of a run of text. -/
def runStatements (text : List Char) (line : Nat) : List Stmt :=
  if text.isEmpty then [] else [.text line (String.ofList text)]

/-- The statements of a template with more text in front of it. -/
def statements (line : Nat) (text : List Char) : List Fragment → List Stmt
  | [] => runStatements text line
  | .text run :: rest => statements line (text ++ run.toList) rest
  | .tag kind name :: rest =>
    let tagLine := line + Text.newlines text
    runStatements text line ++
      .emit tagLine (kind.emitted tagLine name) :: statements tagLine [] rest

/-- The tokens are read as the statements, up to the end of the source. -/
def ParsesAs (s : ParserState) (tokens : List Lexeme) (stmts : List Stmt) : Prop :=
  ∀ fuel last, tokens.length + 30 ≤ fuel →
    ∃ last', body fuel [] (s.on tokens last) = .ok (stmts, s.on [] last')

variable {s : ParserState} {tokens : List Lexeme} {stmts : List Stmt}

theorem parsesAs_nil (hfault : s.fault = none) : ParsesAs s [] [] := by
  intro fuel last hfuel
  obtain ⟨fuel, rfl⟩ := Nat.exists_eq_add_of_le' (Nat.le_trans (Nat.le_add_left 1 _) hfuel)
  have hpeek : peek (s.on [] last) = .ok (none, s.on [] last) := by
    simp only [peek, ParserState.on, hfault]
  have hnext : next (s.on [] last) = .ok (none, s.on [] last) := by
    rw [next, bind_of_ok hpeek]
    rfl
  refine ⟨last, ?_⟩
  rw [body, bind_of_ok hnext]
  rfl

theorem ParsesAs.run (h : ParsesAs s tokens stmts) (text : List Char) (line : Nat) :
    ParsesAs s (runLexemes text line ++ tokens) (runStatements text line ++ stmts) := by
  rw [runLexemes, runStatements]
  cases htext : text.isEmpty with
  | true => exact h
  | false =>
      intro fuel last hfuel
      obtain ⟨fuel, rfl⟩ := Nat.exists_eq_add_of_le' (Nat.le_trans (Nat.le_add_left 1 _) hfuel)
      obtain ⟨last', hbody⟩ := h fuel line (by simp at hfuel; omega)
      exact ⟨last', body_data hbody⟩

theorem ParsesAs.tag (h : ParsesAs s tokens stmts) (hdepth : s.depth + 3 < maxDepth) (line : Nat)
    (kind : TagKind) {name : String} (hname : name ∉ expressionWords) :
    ParsesAs s (onLine line (.expressionStart :: kind.tokens name) ++ tokens)
      (.emit line (kind.emitted line name) :: stmts) := by
  intro fuel last hfuel
  have hlength : tokens.length + 31 ≤ fuel := by
    refine Nat.le_trans ?_ hfuel
    simp only [onLine, List.map_cons, List.cons_append, List.length_cons, List.length_append]
    omega
  obtain ⟨fuel, rfl⟩ : ∃ n, fuel = n + 29 + 1 := ⟨fuel - 30, by omega⟩
  obtain ⟨last', hbody⟩ := h (fuel + 29) line (by omega)
  exact ⟨last', body_expression (expr_tag kind hname hdepth fuel line) hbody⟩

/-- The tokens of a template are read as its statements. -/
theorem parsesAs_statements (hfault : s.fault = none) (hdepth : s.depth + 3 < maxDepth)
    {fragments : List Fragment} (h : ∀ f ∈ fragments, f.WellFormed) (line : Nat)
    (text : List Char) :
    ParsesAs s (lexemes line text fragments) (statements line text fragments) := by
  induction fragments generalizing line text with
  | nil =>
      have hrun := (parsesAs_nil hfault).run text line
      rwa [List.append_nil, List.append_nil] at hrun
  | cons fragment rest ih =>
      have hrest := ih fun f hf => h f (List.mem_cons_of_mem fragment hf)
      cases fragment with
      | text run => exact hrest line (text ++ run.toList)
      | tag kind name =>
          obtain ⟨-, hname, -⟩ := h _ List.mem_cons_self
          have htag := ((hrest (line + Text.newlines text) []).tag hdepth
            (line + Text.newlines text) kind hname).run text line
          rwa [← List.append_assoc] at htag

theorem blocksOf_run (text : List Char) (line : Nat) (stmts : List Stmt) :
    blocksOf (runStatements text line ++ stmts) = blocksOf stmts := by
  rw [runStatements]
  split <;> simp [blocksOf, Stmt.blocks]

theorem blocksOf_statements (line : Nat) (text : List Char) (fragments : List Fragment) :
    blocksOf (statements line text fragments) = [] := by
  induction fragments generalizing line text with
  | nil =>
      have hrun := blocksOf_run text line []
      rwa [List.append_nil] at hrun
  | cons fragment rest ih =>
      cases fragment with
      | text run => exact ih line (text ++ run.toList)
      | tag kind name =>
          rw [statements, blocksOf_run, blocksOf, ih]
          simp [Stmt.blocks]

/-- What an instrumented template is read as. -/
theorem parse_instrumented {ws : Whitespace} (hws : ws.keepTrailingNewline = true)
    {fragments : List Fragment} (h : ∀ f ∈ fragments, f.WellFormed) (name : String) :
    Template.parse ws name (fragments.flatMap instrumented) =
      .ok ⟨name, statements 1 [] fragments, []⟩ := by
  let start : ParserState := { rest := [], fault := none }
  obtain ⟨last, hbody⟩ := parsesAs_statements (s := start) rfl (by decide) h 1 []
    (16 * (lexemes 1 [] fragments).length + 64) 1 (by omega)
  have hstart : ({ rest := lexemes 1 [] fragments, fault := none } : ParserState) =
    start.on (lexemes 1 [] fragments) 1 := rfl
  rw [Template.parse, lex_instrumented hws h]
  simp only [StateT.run, hstart, hbody, blocksOf_statements]

end Fragment

end QueryTemplate
