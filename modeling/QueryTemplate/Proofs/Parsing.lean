import QueryTemplate.Template.Parser

/-!
How the parser goes through the tokens of expressions: what it does with the next token, and how an
operand becomes an expression when no operator follows it. The state in front of some tokens is
written as `s.on tokens last`, so that the tokens that are left stand in the statement.
-/

namespace QueryTemplate.Template

namespace ParserState

/-- The state in front of the given tokens. -/
def on (s : ParserState) (rest : List Lexeme) (last : Nat) : ParserState :=
  { s with rest, last }

/-- The state one level deeper. -/
def deeper (s : ParserState) : ParserState :=
  { s with depth := s.depth + 1 }

end ParserState

namespace Parser

variable {α β : Type} {s : ParserState} {token : Token} {line last : Nat} {rest : List Lexeme}

theorem bind_of_ok {p : Parser α} {f : α → Parser β} {s t : ParserState} {a : α}
    (h : p s = .ok (a, t)) : (p >>= f) s = f a t := by
  show (p s).bind (fun at_ => f at_.1 at_.2) = f a t
  rw [h]
  rfl

theorem exists_of_bind_ok {x : Parser α} {f : α → Parser β} {s s'' : ParserState} {b : β}
    (h : (x >>= f) s = .ok (b, s'')) : ∃ a s', x s = .ok (a, s') ∧ f a s' = .ok (b, s'') := by
  change (x s).bind (fun at_ => f at_.1 at_.2) = .ok (b, s'') at h
  rcases hx : x s with fault | ⟨a, s'⟩
  · rw [hx] at h
    cases h
  · rw [hx] at h
    exact ⟨a, s', rfl, h⟩

theorem pure_apply (a : α) (s : ParserState) : (pure a : Parser α) s = .ok (a, s) := rfl

theorem on_self {s : ParserState} {rest : List Lexeme} (h : s.rest = rest) :
    s = s.on rest s.last := by
  subst h
  rfl

theorem peek_on : peek (s.on (⟨token, line⟩ :: rest) last) =
    .ok (some token, s.on (⟨token, line⟩ :: rest) last) := rfl

theorem next_on : next (s.on (⟨token, line⟩ :: rest) last) =
    .ok (some ⟨token, line⟩, s.on rest line) := rfl

theorem nextLine_on : nextLine (s.on (⟨token, line⟩ :: rest) last) =
    .ok (line, s.on (⟨token, line⟩ :: rest) last) := rfl

theorem lastLine_on : lastLine (s.on rest last) = .ok (last, s.on rest last) := rfl

theorem isNext_on : isNext token (s.on (⟨token, line⟩ :: rest) last) =
    .ok (true, s.on (⟨token, line⟩ :: rest) last) := by
  rw [isNext, bind_of_ok peek_on, pure_apply, BEq.rfl]

theorem isNext_of_ne {wanted : Token} (h : token ≠ wanted) :
    isNext wanted (s.on (⟨token, line⟩ :: rest) last) =
      .ok (false, s.on (⟨token, line⟩ :: rest) last) := by
  rw [isNext, bind_of_ok peek_on, pure_apply]
  simp [h]

theorem skip_on : skip token (s.on (⟨token, line⟩ :: rest) last) = .ok (true, s.on rest line) := by
  rw [skip, bind_of_ok isNext_on]
  rfl

theorem skip_of_ne {wanted : Token} (h : token ≠ wanted) :
    skip wanted (s.on (⟨token, line⟩ :: rest) last) =
      .ok (false, s.on (⟨token, line⟩ :: rest) last) := by
  rw [skip, bind_of_ok (isNext_of_ne h)]
  rfl

theorem expect_on (wanted : String) : expect token wanted (s.on (⟨token, line⟩ :: rest) last) =
    .ok ((), s.on rest line) := by
  rw [expect, bind_of_ok next_on]
  simp only [if_true]
  rfl

theorem identifier_on {text : String} :
    identifier (s.on (⟨.name text, line⟩ :: rest) last) = .ok (text, s.on rest line) := by
  rw [identifier, bind_of_ok next_on]
  rfl

theorem nested_of_ok {p : Parser α} {rest' : List Lexeme} {last' : Nat} {a : α}
    (hdepth : s.depth < maxDepth) (h : p (s.deeper.on rest last) = .ok (a, s.deeper.on rest' last')) :
    nested p (s.on rest last) = .ok (a, s.on rest' last') := by
  have hget : (get : Parser ParserState) (s.on rest last) = .ok (s.on rest last, s.on rest last) := rfl
  have hle : ¬(s.on rest last).depth ≥ maxDepth := Nat.not_le.mpr hdepth
  rw [nested, bind_of_ok hget, if_neg hle]
  have hset : (set { s.on rest last with depth := (s.on rest last).depth + 1 } : Parser PUnit)
      (s.on rest last) = .ok (⟨⟩, s.deeper.on rest last) := rfl
  rw [bind_of_ok hset, bind_of_ok h]
  rfl

theorem rest_nested {p : Parser α} {s s' : ParserState} {a : α} (h : nested p s = .ok (a, s')) :
    ∃ t, p s.deeper = .ok (a, t) ∧ s'.rest = t.rest := by
  obtain ⟨s₁, t₁, hget, h⟩ := exists_of_bind_ok h
  cases hget
  split at h
  · cases h
  · obtain ⟨⟨⟩, t₂, hset, h⟩ := exists_of_bind_ok h
    cases hset
    obtain ⟨b, t₃, hp, h⟩ := exists_of_bind_ok h
    obtain ⟨⟨⟩, t₄, hmodify, h⟩ := exists_of_bind_ok h
    cases hmodify
    cases h
    exact ⟨t₃, hp, rfl⟩

/-! ### From operands to expressions -/

/-- The tokens that end an expression in brackets, in an argument or in a tag. -/
def endsExpression (token : Token) : Bool :=
  token == .symbol ")" || token == .symbol "," || token == .expressionEnd

theorem eq_of_endsExpression (h : endsExpression token = true) :
    token = .symbol ")" ∨ token = .symbol "," ∨ token = .expressionEnd := by
  simpa [endsExpression, or_assoc] using h

theorem operator?_of_ends (h : endsExpression token = true) (n : Nat) : operator? n token = none := by
  rcases eq_of_endsExpression h with rfl | rfl | rfl <;> simp [operator?]

theorem operations_of_ends (h : endsExpression token = true) (fuel n : Nat) (e : Expr) :
    operations (fuel + 1) n e (s.on (⟨token, line⟩ :: rest) last) =
      .ok (e, s.on (⟨token, line⟩ :: rest) last) := by
  rw [operations, bind_of_ok peek_on]
  simp only [operator?_of_ends h]
  rfl

theorem comparisons_of_ends (h : endsExpression token = true) (fuel : Nat) :
    comparisons (fuel + 1) (s.on (⟨token, line⟩ :: rest) last) =
      .ok ([], s.on (⟨token, line⟩ :: rest) last) := by
  rw [comparisons, bind_of_ok peek_on]
  rcases eq_of_endsExpression h with rfl | rfl | rfl <;> rfl

theorem conditions_of_ends (h : endsExpression token = true) (fuel line' : Nat) (e : Expr) :
    conditions (fuel + 1) line' e (s.on (⟨token, line⟩ :: rest) last) =
      .ok (e, s.on (⟨token, line⟩ :: rest) last) := by
  have hne : token ≠ .name "if" := by
    rcases eq_of_endsExpression h with rfl | rfl | rfl <;> simp
  rw [conditions, skipWord, bind_of_ok (skip_of_ne hne)]
  rfl

theorem level_of_next (h : endsExpression token = true) {n : Nat} (hn : n ≠ 2 ∧ n ≠ 3 ∧ n < 8)
    {t : ParserState} {e : Expr} {fuel : Nat}
    (hnext : level (fuel + 1) (n + 1) t = .ok (e, s.on (⟨token, line⟩ :: rest) last)) :
    level (fuel + 2) n t = .ok (e, s.on (⟨token, line⟩ :: rest) last) := by
  rw [level, if_neg hn.1, if_neg hn.2.1, if_pos hn.2.2, bind_of_ok hnext, operations_of_ends h]

/-- An operand in front of a token that ends expressions is the whole expression. -/
theorem level_of_operand (h : endsExpression token = true) {first : Lexeme} {tokens : List Lexeme}
    {before : Nat} (hnot : first.token ≠ .name "not") {e : Expr} {fuel : Nat}
    (hoperand : level (fuel + 1) 8 (s.on (first :: tokens) before) =
      .ok (e, s.on (⟨token, line⟩ :: rest) last)) :
    level (fuel + 9) 0 (s.on (first :: tokens) before) =
      .ok (e, s.on (⟨token, line⟩ :: rest) last) := by
  have h4 : level (fuel + 5) 4 (s.on (first :: tokens) before) =
      .ok (e, s.on (⟨token, line⟩ :: rest) last) :=
    level_of_next h (by decide) (level_of_next h (by decide) (level_of_next h (by decide)
      (level_of_next h (by decide) hoperand)))
  have h3 : level (fuel + 6) 3 (s.on (first :: tokens) before) =
      .ok (e, s.on (⟨token, line⟩ :: rest) last) := by
    rw [level, if_neg (by decide), if_pos rfl, bind_of_ok lastLine_on, bind_of_ok h4,
      bind_of_ok (comparisons_of_ends h _)]
    rfl
  have h2 : level (fuel + 7) 2 (s.on (first :: tokens) before) =
      .ok (e, s.on (⟨token, line⟩ :: rest) last) := by
    rw [level, if_pos rfl, bind_of_ok nextLine_on, skipWord, bind_of_ok (skip_of_ne hnot),
      if_neg Bool.false_ne_true, h3]
  exact level_of_next h (by decide) (level_of_next h (by decide) h2)

/-- The same for an expression, which is read one level deeper. -/
theorem expr_of_operand (h : endsExpression token = true) {first : Lexeme} {tokens : List Lexeme}
    {before : Nat} (hnot : first.token ≠ .name "not") (hdepth : s.depth < maxDepth) {e : Expr}
    {fuel : Nat}
    (hoperand : level (fuel + 1) 8 (s.deeper.on (first :: tokens) before) =
      .ok (e, s.deeper.on (⟨token, line⟩ :: rest) last)) :
    expr (fuel + 11) (s.on (first :: tokens) before) =
      .ok (e, s.on (⟨token, line⟩ :: rest) last) := by
  have hchoice : choice (fuel + 10) (s.deeper.on (first :: tokens) before) =
      .ok (e, s.deeper.on (⟨token, line⟩ :: rest) last) := by
    rw [choice, bind_of_ok lastLine_on, bind_of_ok (level_of_operand h hnot hoperand),
      conditions_of_ends h]
  rw [expr, nested_of_ok hdepth hchoice]

/-! ### Operands -/

/-- The tokens behind an operand that no attribute, subscript or argument list follows. -/
def endsOperand (token : Token) : Bool :=
  endsExpression token || token == .symbol "|"

theorem postfix_of_ends (h : endsOperand token = true) (fuel line' : Nat) (e : Expr) :
    postfix_ (fuel + 1) line' e (s.on (⟨token, line⟩ :: rest) last) =
      .ok (e, s.on (⟨token, line⟩ :: rest) last) := by
  have hne : token ≠ .symbol "." ∧ token ≠ .symbol "[" ∧ token ≠ .symbol "(" := by
    rw [endsOperand, Bool.or_eq_true, beq_iff_eq] at h
    rcases h with h | rfl
    · rcases eq_of_endsExpression h with rfl | rfl | rfl <;> decide
    · decide
  rw [postfix_, skipSymbol, bind_of_ok (skip_of_ne hne.1), if_neg Bool.false_ne_true, skipSymbol,
    bind_of_ok (skip_of_ne hne.2.1), if_neg Bool.false_ne_true, bind_of_ok (isNext_of_ne hne.2.2)]
  rfl

theorem filters_of_ends (h : endsExpression token = true) (fuel : Nat) (e : Expr) :
    filters (fuel + 1) e (s.on (⟨token, line⟩ :: rest) last) =
      .ok (e, s.on (⟨token, line⟩ :: rest) last) := by
  have hne : token ≠ .symbol "|" ∧ token ≠ .name "is" := by
    rcases eq_of_endsExpression h with rfl | rfl | rfl <;> decide
  rw [filters, skipSymbol, bind_of_ok (skip_of_ne hne.1), if_neg Bool.false_ne_true, skipWord,
    bind_of_ok (skip_of_ne hne.2)]
  rfl

/-- An operand is a primary expression and the filters behind it, unless it has a sign. -/
theorem level_operand {tokens : List Lexeme} {before : Nat} {first : Lexeme}
    (hsign : first.token ≠ .symbol "-") (hdepth : s.depth < maxDepth) (h : endsOperand token = true)
    {e : Expr} {fuel : Nat}
    (hprimary : primary (fuel + 1) (s.deeper.on (first :: tokens) before) =
      .ok (e, s.deeper.on (⟨token, line⟩ :: rest) last)) :
    level (fuel + 3) 8 (s.on (first :: tokens) before) =
      filters (fuel + 2) e (s.on (⟨token, line⟩ :: rest) last) := by
  have hunary : unary (fuel + 2) (s.on (first :: tokens) before) =
      .ok (e, s.on (⟨token, line⟩ :: rest) last) := by
    rw [unary, bind_of_ok nextLine_on, skipSymbol, bind_of_ok (skip_of_ne hsign),
      if_neg Bool.false_ne_true, nested_of_ok hdepth hprimary]
  rw [level, if_neg (by decide), if_neg (by decide), if_neg (by decide), bind_of_ok nextLine_on,
    bind_of_ok hunary, bind_of_ok (postfix_of_ends h _ _ _)]

theorem primary_name {name : String} (hname : literal? (.name name) = none) (fuel : Nat) :
    primary (fuel + 1) (s.on (⟨.name name, line⟩ :: rest) last) =
      .ok (.var line name, s.on rest line) := by
  rw [primary, bind_of_ok next_on]
  simp only [hname]
  rfl

theorem primary_string {text : String} (h : endsExpression token = true) {line' : Nat} (fuel : Nat) :
    primary (fuel + 2) (s.on (⟨.string text, line'⟩ :: ⟨token, line⟩ :: rest) last) =
      .ok (.const line' (.str text), s.on (⟨token, line⟩ :: rest) line') := by
  have hstrings : adjacentStrings (fuel + 1) text (s.on (⟨token, line⟩ :: rest) line') =
      .ok (text, s.on (⟨token, line⟩ :: rest) line') := by
    rw [adjacentStrings, bind_of_ok peek_on]
    rcases eq_of_endsExpression h with rfl | rfl | rfl <;> rfl
  rw [primary, bind_of_ok next_on]
  simp only [literal?]
  rw [bind_of_ok hstrings]
  rfl

/-- An expression in parentheses. -/
theorem primary_parenthesized {first : Lexeme} {tokens : List Lexeme} {line' : Nat}
    (hfirst : first.token ≠ .symbol ")") {e : Expr} {fuel : Nat}
    (hexpr : expr fuel (s.on (first :: tokens) line) =
      .ok (e, s.on (⟨.symbol ")", line'⟩ :: rest) last)) {before : Nat} :
    primary (fuel + 1) (s.on (⟨.symbol "(", line⟩ :: first :: tokens) before) =
      .ok (e, s.on rest line') := by
  rw [primary, bind_of_ok next_on]
  simp only [literal?]
  rw [skipSymbol, bind_of_ok (skip_of_ne hfirst), if_neg Bool.false_ne_true, bind_of_ok hexpr,
    bind_of_ok (isNext_of_ne (by decide)), if_neg Bool.false_ne_true, expectSymbol,
    bind_of_ok (expect_on _)]
  rfl

/-- An operand without filters is an expression. -/
theorem expr_of_primary (h : endsExpression token = true) {first : Lexeme} {tokens : List Lexeme}
    {before : Nat} (hnot : first.token ≠ .name "not") (hsign : first.token ≠ .symbol "-")
    (hdepth : s.depth + 1 < maxDepth) {e : Expr} {fuel : Nat}
    (hprimary : primary (fuel + 1) (s.deeper.deeper.on (first :: tokens) before) =
      .ok (e, s.deeper.deeper.on (⟨token, line⟩ :: rest) last)) :
    expr (fuel + 13) (s.on (first :: tokens) before) =
      .ok (e, s.on (⟨token, line⟩ :: rest) last) := by
  have hoperand : endsOperand token = true := by rw [endsOperand, h, Bool.true_or]
  refine expr_of_operand h hnot (Nat.lt_of_succ_lt hdepth) ?_
  rw [level_operand hsign hdepth hoperand hprimary, filters_of_ends h]

/-! ### Filters and their arguments -/

theorem dottedName_on {name : String} (h : token ≠ .symbol ".") {line' : Nat} (fuel : Nat) :
    dottedName (fuel + 1) (s.on (⟨.name name, line'⟩ :: ⟨token, line⟩ :: rest) last) =
      .ok (name, s.on (⟨token, line⟩ :: rest) line') := by
  rw [dottedName, bind_of_ok identifier_on, skipSymbol, bind_of_ok (skip_of_ne h)]
  rfl

/-- A filter without arguments. -/
theorem filters_bar {name : String} (hdot : token ≠ .symbol ".") (hparen : token ≠ .symbol "(")
    {line₁ line₂ : Nat} (fuel : Nat) (e : Expr) :
    filters (fuel + 2) e
        (s.on (⟨.symbol "|", line₁⟩ :: ⟨.name name, line₂⟩ :: ⟨token, line⟩ :: rest) last) =
      filters (fuel + 1) (.filter line₂ (some e) name []) (s.on (⟨token, line⟩ :: rest) line₂) := by
  rw [filters, skipSymbol, bind_of_ok skip_on, if_pos rfl, bind_of_ok nextLine_on,
    bind_of_ok (dottedName_on hdot _), bind_of_ok (isNext_of_ne hparen)]
  rfl

/-- A filter with arguments. -/
theorem filters_bar_arguments {name : String} {line₁ line₂ : Nat} {fuel : Nat}
    {args : List (ArgKind × Expr)} {t : ParserState}
    (hargs : arguments (fuel + 1) (s.on (⟨.symbol "(", line⟩ :: rest) line₂) = .ok (args, t))
    (e : Expr) :
    filters (fuel + 2) e
        (s.on (⟨.symbol "|", line₁⟩ :: ⟨.name name, line₂⟩ :: ⟨.symbol "(", line⟩ :: rest) last) =
      filters (fuel + 1) (.filter line₂ (some e) name args) t := by
  rw [filters, skipSymbol, bind_of_ok skip_on, if_pos rfl, bind_of_ok nextLine_on,
    bind_of_ok (dottedName_on (by decide) _), bind_of_ok isNext_on, if_pos rfl, bind_of_ok hargs]

theorem moreArguments_end (fuel : Nat) (first named : Bool) :
    moreArguments (fuel + 1) first named (s.on (⟨.symbol ")", line⟩ :: rest) last) =
      .ok ([], s.on rest line) := by
  rw [moreArguments, skipSymbol, bind_of_ok skip_on]
  rfl

/-- An argument and the ones behind it. -/
def argumentsFrom (fuel : Nat) (named : Bool) : Parser (List (ArgKind × Expr)) := do
  if ← skipSymbol "**" then
    let e ← expr fuel
    return (.spreadNamed, e) :: (← moreArguments fuel false true)
  else if ← skipSymbol "*" then
    let e ← expr fuel
    return (.spread, e) :: (← moreArguments fuel false named)
  else
    let e ← expr fuel
    match e with
    | .var _ name =>
      if ← skipSymbol "=" then
        let value ← level fuel 0
        return (.named name, value) :: (← moreArguments fuel false true)
      else if named then fail "non-keyword arg after keyword arg"
      else return (.positional, e) :: (← moreArguments fuel false named)
    | e =>
      if named then fail "non-keyword arg after keyword arg"
      else return (.positional, e) :: (← moreArguments fuel false named)

/-- A token that neither ends arguments nor marks one that is spread. -/
def beginsArgument (token : Token) : Bool :=
  token != .symbol ")" && token != .symbol "**" && token != .symbol "*"

section

variable {first : Lexeme} {tokens : List Lexeme} {e : Expr} {fuel before : Nat}
  {more : List (ArgKind × Expr)} {t : ParserState}

theorem argumentsFrom_positional (hfirst : beginsArgument first.token = true)
    (htoken : token ≠ .symbol "=")
    (hexpr : expr fuel (s.on (first :: tokens) before) = .ok (e, s.on (⟨token, line⟩ :: rest) last))
    (hmore : moreArguments fuel false false (s.on (⟨token, line⟩ :: rest) last) = .ok (more, t)) :
    argumentsFrom fuel false (s.on (first :: tokens) before) = .ok ((.positional, e) :: more, t) := by
  simp only [beginsArgument, Bool.and_eq_true, bne_iff_ne] at hfirst
  rw [argumentsFrom, skipSymbol, bind_of_ok (skip_of_ne hfirst.1.2), if_neg Bool.false_ne_true,
    skipSymbol, bind_of_ok (skip_of_ne hfirst.2), if_neg Bool.false_ne_true, bind_of_ok hexpr]
  cases e with
  | var l name =>
      simp only [skipSymbol]
      rw [bind_of_ok (skip_of_ne htoken), if_neg Bool.false_ne_true, if_neg Bool.false_ne_true,
        bind_of_ok hmore]
      rfl
  | _ =>
      simp only [if_neg Bool.false_ne_true]
      rw [bind_of_ok hmore]
      rfl

theorem moreArguments_first (hfirst : beginsArgument first.token = true) :
    moreArguments (fuel + 1) true false (s.on (first :: tokens) before) =
      argumentsFrom fuel false (s.on (first :: tokens) before) := by
  simp only [beginsArgument, Bool.and_eq_true, bne_iff_ne] at hfirst
  rw [moreArguments, skipSymbol, bind_of_ok (skip_of_ne hfirst.1.1), if_neg Bool.false_ne_true,
    if_neg (by decide)]
  rfl

theorem moreArguments_next (hfirst : beginsArgument first.token = true) :
    moreArguments (fuel + 1) false false (s.on (⟨.symbol ",", line⟩ :: first :: tokens) before) =
      argumentsFrom fuel false (s.on (first :: tokens) line) := by
  simp only [beginsArgument, Bool.and_eq_true, bne_iff_ne] at hfirst
  rw [moreArguments, skipSymbol, bind_of_ok (skip_of_ne (by decide)), if_neg Bool.false_ne_true,
    if_pos (by decide), expectSymbol, bind_of_ok (expect_on _),
    bind_of_ok (skip_of_ne hfirst.1.1), if_neg Bool.false_ne_true]
  rfl

theorem arguments_on :
    arguments (fuel + 1) (s.on (⟨.symbol "(", line⟩ :: rest) last) =
      moreArguments fuel true false (s.on rest line) := by
  rw [arguments, expectSymbol, bind_of_ok (expect_on _)]

end

/-! ### From expressions to operands -/

/-- A parser that takes nothing, however much fuel it has. -/
theorem eq_of_stays {p : Nat → Parser α} {fuel : Nat} {s s' : ParserState} {a a' : α}
    (hzero : ∀ t, (p 0 t).toOption = none) (hstays : ∀ fuel, p (fuel + 1) s = .ok (a, s))
    (h : p fuel s = .ok (a', s')) : a' = a ∧ s' = s := by
  cases fuel with
  | zero =>
      have hnone := hzero s
      rw [h] at hnone
      cases hnone
  | succ fuel =>
      rw [hstays] at h
      cases h
      exact ⟨rfl, rfl⟩

section

variable {first stop : Lexeme} {tokens : List Lexeme} {P : Expr → Prop}

/-- What an expression of a precedence level is read as from some tokens, up to the one that ends
it. -/
def ReadsAs (tokens : List Lexeme) (stop : Lexeme) (rest : List Lexeme) (P : Expr → Prop)
    (p : Nat → Parser Expr) : Prop :=
  ∀ fuel s e s', s.rest = tokens ++ stop :: rest → p fuel s = .ok (e, s') →
    P e ∧ s'.rest = stop :: rest

theorem readsAs_level (hstop : endsExpression stop.token = true) {n : Nat}
    (hn : n ≠ 2 ∧ n ≠ 3 ∧ n < 8)
    (hnext : ReadsAs tokens stop rest P fun fuel => level fuel (n + 1)) :
    ReadsAs tokens stop rest P fun fuel => level fuel n := by
  intro fuel s e s' hs h
  cases fuel with
  | zero => unfold level at h; cases h
  | succ fuel =>
      dsimp only at h
      rw [level, if_neg hn.1, if_neg hn.2.1, if_pos hn.2.2] at h
      obtain ⟨e₁, t, hoperand, hoperations⟩ := exists_of_bind_ok h
      obtain ⟨he, hend⟩ := hnext _ _ _ _ hs hoperand
      obtain ⟨rfl, rfl⟩ := eq_of_stays (p := fun fuel => operations fuel n e₁)
        (fun t => by rw [operations]; rfl)
        (fun fuel => by rw [on_self hend, operations_of_ends hstop]) hoperations
      exact ⟨he, hend⟩

theorem readsAs_comparison (hstop : endsExpression stop.token = true)
    (hnext : ReadsAs tokens stop rest P fun fuel => level fuel 4) :
    ReadsAs tokens stop rest P fun fuel => level fuel 3 := by
  intro fuel s e s' hs h
  cases fuel with
  | zero => unfold level at h; cases h
  | succ fuel =>
      dsimp only at h
      rw [level, if_neg (by decide), if_pos rfl] at h
      obtain ⟨line', t, hline, h⟩ := exists_of_bind_ok h
      cases hline
      obtain ⟨e₁, t, hoperand, h⟩ := exists_of_bind_ok h
      obtain ⟨he, hend⟩ := hnext _ _ _ _ hs hoperand
      obtain ⟨steps, u, hsteps, hresult⟩ := exists_of_bind_ok h
      obtain ⟨rfl, rfl⟩ := eq_of_stays (p := comparisons)
        (fun t => by rw [comparisons]; rfl)
        (fun fuel => by rw [on_self hend, comparisons_of_ends hstop]) hsteps
      cases hresult
      exact ⟨he, hend⟩

theorem readsAs_negation (hnot : first.token ≠ .name "not")
    (hnext : ReadsAs (first :: tokens) stop rest P fun fuel => level fuel 3) :
    ReadsAs (first :: tokens) stop rest P fun fuel => level fuel 2 := by
  intro fuel s e s' hs h
  cases fuel with
  | zero => unfold level at h; cases h
  | succ fuel =>
      dsimp only at h
      rw [on_self hs, level, if_pos rfl, List.cons_append, bind_of_ok nextLine_on, skipWord,
        bind_of_ok (skip_of_ne hnot), if_neg Bool.false_ne_true] at h
      exact hnext _ _ _ _ rfl h

theorem readsAs_conditional (hstop : endsExpression stop.token = true)
    (hnext : ReadsAs tokens stop rest P fun fuel => level fuel 0) :
    ReadsAs tokens stop rest P expr := by
  intro fuel s e s' hs h
  rcases fuel with _ | _ | fuel
  · unfold expr at h
    cases h
  · rw [expr] at h
    obtain ⟨t, ht, -⟩ := rest_nested h
    unfold choice at ht
    cases ht
  · rw [expr] at h
    obtain ⟨t, hchoice, hrest⟩ := rest_nested h
    rw [choice] at hchoice
    obtain ⟨line', u, hline, hchoice⟩ := exists_of_bind_ok hchoice
    cases hline
    obtain ⟨e₁, u, hlevel, hconditions⟩ := exists_of_bind_ok hchoice
    obtain ⟨he, hend⟩ := hnext _ s.deeper _ _ hs hlevel
    obtain ⟨rfl, rfl⟩ := eq_of_stays (p := fun fuel => conditions fuel _ e₁)
      (fun t => by rw [conditions]; rfl)
      (fun fuel => by rw [on_self hend, conditions_of_ends hstop]) hconditions
    exact ⟨he, hrest.trans hend⟩

/-- An expression is what its operand is, if that ends at a token that ends expressions. -/
theorem readsAs_expr (hstop : endsExpression stop.token = true) (hnot : first.token ≠ .name "not")
    (h8 : ReadsAs (first :: tokens) stop rest P fun fuel => level fuel 8) :
    ReadsAs (first :: tokens) stop rest P expr := by
  -- comparisons, negations and the choice between two values have forms of their own
  have h4 : ReadsAs (first :: tokens) stop rest P fun fuel => level fuel 4 :=
    readsAs_level hstop (by decide) (readsAs_level hstop (by decide)
      (readsAs_level hstop (by decide) (readsAs_level hstop (by decide) h8)))
  have h2 : ReadsAs (first :: tokens) stop rest P fun fuel => level fuel 2 :=
    readsAs_negation hnot (readsAs_comparison hstop h4)
  have h0 : ReadsAs (first :: tokens) stop rest P fun fuel => level fuel 0 :=
    readsAs_level hstop (by decide) (readsAs_level hstop (by decide) h2)
  exact readsAs_conditional hstop h0

end

end Parser

end QueryTemplate.Template
