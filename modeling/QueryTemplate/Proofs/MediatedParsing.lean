import QueryTemplate.Proofs.Mediation
import QueryTemplate.Proofs.Nesting

/-!
Reading the expression of a tag that was made to end in the emit filter. Whatever was put into the
parentheses in front of the filter, the brackets of the tag cannot be closed too early, so the emit
filter is applied last.
-/

namespace QueryTemplate.Template

/-- The tokens of an expression in parentheses and of the emit filter behind it. -/
inductive EmitTag : List Lexeme → Prop where
  | mk {inner args : List Lexeme} {l₁ l₂ l₃ l₄ l₅ l₆ : Nat} (hinner : nestAll inner 1 = some 1)
    (hargs : nestAll args 1 = some 1) :
    EmitTag (⟨.symbol "(", l₁⟩ :: inner ++ ⟨.symbol ")", l₂⟩ :: ⟨.symbol "|", l₃⟩ ::
      ⟨.name emitName, l₄⟩ :: ⟨.symbol "(", l₅⟩ :: args ++ [⟨.symbol ")", l₆⟩])

namespace Parser

variable {α β : Type}

/-- A run of tokens is closed at one place only. -/
theorem eq_of_closing {inner after taken rest : List Lexeme} {l : Lexeme}
    (h : inner ++ l :: after = taken ++ rest) (hinner : nestAll inner 1 = some 1)
    (hl : l.token.nest 1 = some 0) (htaken : nestAll taken 1 = some 0) : rest = after := by
  have hclosed : nestAll (inner ++ [l]) 1 = some 0 := by
    rw [nestAll_append, hinner, Option.bind_some, nestAll, hl]
    rfl
  rw [← List.singleton_append, ← List.append_assoc] at h
  rcases List.append_eq_append_iff.mp h with ⟨more, rfl, rfl⟩ | ⟨more, hmore, rfl⟩
  · rw [nestAll_append, hclosed] at htaken
    rw [nestAll_zero htaken, List.nil_append]
  · rw [hmore, nestAll_append, htaken] at hclosed
    rw [nestAll_zero hclosed, List.nil_append]

/-! ### Expression tags -/

/-- An expression in parentheses ends with the parenthesis that closes it. -/
theorem rest_primary {fuel line : Nat} {s s' : ParserState} {e : Expr} {tail : List Lexeme}
    (h : primary fuel s = .ok (e, s')) (hs : s.rest = ⟨.symbol "(", line⟩ :: tail) :
    ∃ taken, tail = taken ++ s'.rest ∧ nestAll taken 1 = some 0 := by
  cases fuel with
  | zero => unfold primary at h; cases h
  | succ fuel =>
      unfold primary at h
      rcases next_ok h with ⟨hrest, -⟩ | ⟨l, rest, hrest, h⟩
      · rw [hs] at hrest
        cases hrest
      · rw [hs] at hrest
        obtain ⟨rfl, rfl⟩ := List.cons.inj hrest
        exact takes_parentheses inferInstance (takes_items fuel _ _ (.inl rfl)) line _ _ _ _ rfl h

theorem rest_unary {fuel line : Nat} {s s' : ParserState} {e : Expr} {tail : List Lexeme}
    (h : unary fuel s = .ok (e, s')) (hs : s.rest = ⟨.symbol "(", line⟩ :: tail) :
    ∃ taken, tail = taken ++ s'.rest ∧ nestAll taken 1 = some 0 := by
  cases fuel with
  | zero => unfold unary at h; cases h
  | succ fuel =>
      rw [on_self hs, unary, bind_of_ok nextLine_on, skipSymbol, bind_of_ok (skip_of_ne (by decide)),
        if_neg Bool.false_ne_true] at h
      obtain ⟨t, hprimary, hrest⟩ := rest_nested h
      rw [hrest]
      exact rest_primary hprimary rfl

/-- The emit filter is applied to an operand that is read from tokens in parentheses, and from no
others. -/
def EmitsOperand (inner : List Lexeme) (e : Expr) : Prop :=
  ∃ line operand args, e = .filter line (some operand) emitName args ∧
    ∃ fuel s s' l₁ l₂, unary fuel s = .ok (operand, s') ∧
      s.rest = ⟨.symbol "(", l₁⟩ :: inner ++ ⟨.symbol ")", l₂⟩ :: s'.rest

theorem EmitsOperand.isEmission {inner : List Lexeme} {e : Expr} (h : EmitsOperand inner e) :
    e.isEmission = true := by
  obtain ⟨line, operand, args, rfl, -⟩ := h
  rfl

section

variable {tag inner args rest : List Lexeme} {line l₁ l₂ l₃ l₄ l₅ l₆ : Nat}

theorem filters_of_emitTag (hargs : nestAll args 1 = some 1) {fuel : Nat}
    {s s' : ParserState} {e e' : Expr} (h : filters fuel e s = .ok (e', s'))
    (hs : s.rest = ⟨.symbol "|", l₁⟩ :: ⟨.name emitName, l₂⟩ :: ⟨.symbol "(", l₃⟩ ::
      (args ++ ⟨.symbol ")", l₄⟩ :: ⟨.expressionEnd, line⟩ :: rest)) :
    (∃ line' given, e' = .filter line' (some e) emitName given) ∧
      s'.rest = ⟨.expressionEnd, line⟩ :: rest := by
  match fuel with
  | 0 => unfold filters at h; cases h
  | 1 =>
      rw [on_self hs, filters, skipSymbol, bind_of_ok skip_on, if_pos rfl, bind_of_ok nextLine_on] at h
      obtain ⟨name, t, hname, -⟩ := exists_of_bind_ok h
      unfold dottedName at hname
      cases hname
  | fuel + 2 =>
      rw [on_self hs, filters, skipSymbol, bind_of_ok skip_on, if_pos rfl, bind_of_ok nextLine_on,
        bind_of_ok (dottedName_on (by decide) _), bind_of_ok isNext_on, if_pos rfl] at h
      obtain ⟨given, t, hgiven, h⟩ := exists_of_bind_ok h
      rw [arguments_on] at hgiven
      obtain ⟨taken, htaken, hclosed⟩ := takes_moreArguments _ _ _ _ _ _ _ rfl hgiven
      have hend := eq_of_closing htaken hargs rfl hclosed
      obtain ⟨rfl, rfl⟩ := eq_of_stays (p := fun fuel => filters fuel _) (fun t => by rw [filters]; rfl)
        (fun fuel => by rw [on_self hend, filters_of_ends rfl]) h
      exact ⟨⟨_, given, rfl⟩, hend⟩

/-- The operand of a tag is what stands in parentheses, and the emit filter is applied to it. -/
theorem operand_of_emitTag (hinner : nestAll inner 1 = some 1) (hargs : nestAll args 1 = some 1)
    {fuel : Nat} {s s' : ParserState} {e : Expr} (h : level fuel 8 s = .ok (e, s'))
    (hs : s.rest = ⟨.symbol "(", l₁⟩ :: (inner ++ ⟨.symbol ")", l₂⟩ :: ⟨.symbol "|", l₃⟩ ::
      ⟨.name emitName, l₄⟩ :: ⟨.symbol "(", l₅⟩ :: (args ++ ⟨.symbol ")", l₆⟩ ::
        ⟨.expressionEnd, line⟩ :: rest))) :
    EmitsOperand inner e ∧ s'.rest = ⟨.expressionEnd, line⟩ :: rest := by
  cases fuel with
  | zero => unfold level at h; cases h
  | succ fuel =>
      rw [level, if_neg (by decide), if_neg (by decide), if_neg (by decide), on_self hs,
        bind_of_ok nextLine_on] at h
      obtain ⟨e₀, t₁, hunary, h⟩ := exists_of_bind_ok h
      obtain ⟨taken, htaken, hclosed⟩ := rest_unary hunary rfl
      have hbar := eq_of_closing htaken hinner rfl hclosed
      obtain ⟨e₁, t₂, hoperand, hfilters⟩ := exists_of_bind_ok h
      obtain ⟨rfl, rfl⟩ := eq_of_stays (p := fun fuel => postfix_ fuel l₁ e₀)
        (fun t => by rw [postfix_]; rfl)
        (fun fuel => by rw [on_self hbar, postfix_of_ends rfl]) hoperand
      obtain ⟨⟨line', given, rfl⟩, hend⟩ := filters_of_emitTag hargs hfilters hbar
      exact ⟨⟨line', _, given, rfl, _, _, _, l₁, l₂, hunary, by rw [hbar]; rfl⟩, hend⟩

/-- The tokens of a tag that ends in the emit filter are read as an emission of what stands in
parentheses. -/
theorem emitsOperand_expr (hinner : nestAll inner 1 = some 1) (hargs : nestAll args 1 = some 1) :
    ReadsAs (⟨.symbol "(", l₁⟩ :: inner ++ ⟨.symbol ")", l₂⟩ :: ⟨.symbol "|", l₃⟩ ::
      ⟨.name emitName, l₄⟩ :: ⟨.symbol "(", l₅⟩ :: args ++ [⟨.symbol ")", l₆⟩])
      ⟨.expressionEnd, line⟩ rest (EmitsOperand inner) expr := by
  simp only [List.cons_append, List.append_assoc]
  refine readsAs_expr rfl (by simp) fun fuel s e s' hs h => ?_
  simp only [List.cons_append, List.append_assoc, List.nil_append] at hs
  exact operand_of_emitTag hinner hargs h hs

/-- The tokens of a tag that ends in the emit filter are read as an emission. -/
theorem readsEmission_expr (htag : EmitTag tag) :
    ReadsAs tag ⟨.expressionEnd, line⟩ rest (·.isEmission = true) expr := by
  obtain ⟨hinner, hargs⟩ := htag
  intro fuel s e s' hs h
  obtain ⟨he, hend⟩ := emitsOperand_expr hinner hargs fuel s e s' hs h
  exact ⟨he.isEmission, hend⟩

end

end Parser

end QueryTemplate.Template
