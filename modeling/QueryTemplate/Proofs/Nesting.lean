import QueryTemplate.Proofs.Parsing

/-!
Brackets in the tokens of a tag. `nestAll` counts the open brackets of a run of tokens and fails at a
closing one that has no partner, and at the beginning or end of a tag. The parser of expressions only
takes runs that leave as many brackets open as there were: `Steady p` says this of a parser, and
`Takes m p n` of one that is given `m` open brackets to close and leaves `n`.
-/

namespace QueryTemplate.Template

/-- The number of open brackets behind a symbol. -/
def nestSymbol (s : String) : Nat → Option Nat
  | 0 => none
  | d + 1 =>
    if ["(", "[", "\x7b"].contains s then some (d + 2)
    else if [")", "]", "\x7d"].contains s then some d
    else some (d + 1)

/-- The number of open brackets behind a token. -/
def Token.nest (t : Token) (d : Nat) : Option Nat :=
  match t with
  | .symbol s => nestSymbol s d
  | .name _ | .string _ | .int _ | .float .. => if d = 0 then none else some d
  | .data _ | .expressionStart | .expressionEnd | .blockStart | .blockEnd => none

/-- The number of open brackets behind some tokens. -/
def nestAll : List Lexeme → Nat → Option Nat
  | [], d => some d
  | l :: rest, d => (l.token.nest d).bind (nestAll rest)

theorem nestAll_append (a b : List Lexeme) (d : Nat) :
    nestAll (a ++ b) d = (nestAll a d).bind (nestAll b) := by
  induction a generalizing d with
  | nil => rfl
  | cons l a ih =>
      rw [List.cons_append, nestAll, nestAll]
      cases l.token.nest d with
      | none => rfl
      | some d' => exact ih d'

@[simp] theorem Token.nest_zero (t : Token) : t.nest 0 = none := by
  cases t <;> rfl

/-- Nothing is taken behind the last closing bracket. -/
theorem nestAll_zero {tokens : List Lexeme} {d : Nat} (h : nestAll tokens 0 = some d) :
    tokens = [] := by
  cases tokens with
  | nil => rfl
  | cons l rest =>
      rw [nestAll, Token.nest_zero] at h
      cases h

theorem nestSymbol_add {s : String} {d d' : Nat} (h : nestSymbol s d = some d') (k : Nat) :
    nestSymbol s (d + k) = some (d' + k) := by
  cases d with
  | zero => cases h
  | succ d =>
      rw [Nat.add_right_comm]
      unfold nestSymbol at h ⊢
      grind

theorem Token.nest_add {t : Token} {d d' : Nat} (h : t.nest d = some d') (k : Nat) :
    t.nest (d + k) = some (d' + k) := by
  unfold nest at h ⊢
  split at h
  · exact nestSymbol_add h k
  all_goals grind

/-- Brackets that are open in front of all the tokens do not matter. -/
theorem nestAll_add {tokens : List Lexeme} {d d' : Nat} (h : nestAll tokens d = some d') (k : Nat) :
    nestAll tokens (d + k) = some (d' + k) := by
  induction tokens generalizing d with
  | nil => exact congrArg (fun d => some (d + k)) (Option.some.inj h)
  | cons l rest ih =>
      obtain ⟨m, hm, hrest⟩ := Option.bind_eq_some_iff.mp h
      rw [nestAll, Token.nest_add hm k]
      exact ih hrest

/-- A token that opens and closes nothing. -/
class Token.Flat (t : Token) : Prop where
  nest : ∀ d, t.nest (d + 1) = some (d + 1)

namespace Token.Flat

instance name (text : String) : Flat (.name text) := ⟨fun _ => rfl⟩
instance dot : Flat (.symbol ".") := ⟨fun _ => rfl⟩
instance comma : Flat (.symbol ",") := ⟨fun _ => rfl⟩
instance colon : Flat (.symbol ":") := ⟨fun _ => rfl⟩
instance bar : Flat (.symbol "|") := ⟨fun _ => rfl⟩
instance equals : Flat (.symbol "=") := ⟨fun _ => rfl⟩
instance minus : Flat (.symbol "-") := ⟨fun _ => rfl⟩
instance star : Flat (.symbol "*") := ⟨fun _ => rfl⟩
instance stars : Flat (.symbol "**") := ⟨fun _ => rfl⟩

end Token.Flat

namespace Parser

variable {α β : Type}

/-- What comes behind the next token, if there is one. -/
theorem next_ok {f : Option Lexeme → Parser β} {s s' : ParserState} {b : β}
    (h : (next >>= f) s = .ok (b, s')) :
    (s.rest = [] ∧ f none s = .ok (b, s')) ∨
      ∃ l rest, s.rest = l :: rest ∧ f (some l) { s with rest, last := l.line } = .ok (b, s') := by
  obtain ⟨l?, t, hl, hb⟩ := exists_of_bind_ok h
  rcases s with ⟨rest, fault, last, blocks, inMacro, depth⟩
  cases rest with
  | nil =>
      cases fault with
      | none =>
          cases hl
          exact .inl ⟨rfl, hb⟩
      | some fault => cases hl
  | cons l rest =>
      cases hl
      exact .inr ⟨l, rest, rfl, hb⟩

/-- The parser is in front of this token. -/
def AtToken (t? : Option Token) (s : ParserState) : Prop :=
  s.rest.head?.map Lexeme.token = t?

/-- In front of the given token, the parser takes tokens that lead from `m` open brackets to the
number for its result. -/
def TakesAt (t? : Option Token) (m : Nat) (p : Parser α) (n : α → Nat) : Prop :=
  ∀ s a s', AtToken t? s → p s = .ok (a, s') →
    ∃ taken, s.rest = taken ++ s'.rest ∧ nestAll taken m = some (n a)

/-- The parser takes tokens that lead from `m` open brackets to the number for its result. -/
def Takes (m : Nat) (p : Parser α) (n : α → Nat) : Prop :=
  ∀ t?, TakesAt t? m p n

/-- The parser takes tokens that close every bracket they open, and no other. -/
class Steady (p : Parser α) : Prop where
  takes : Takes 1 p fun _ => 1

section Rules

variable {t? : Option Token} {m : Nat} {n : α → Nat} {k : β → Nat}

theorem TakesAt.pure {a : α} (h : n a = m) : TakesAt t? m (Pure.pure a : Parser α) n := by
  intro s b s' _ hp
  cases hp
  exact ⟨[], rfl, by rw [nestAll, h]⟩

theorem Takes.pure {a : α} (h : n a = m) : Takes m (Pure.pure a : Parser α) n :=
  fun _ => TakesAt.pure h

theorem Takes.fail (text : String) : Takes m (Parser.fail text) n := by
  intro t? s a s' _ hp
  cases hp

theorem Takes.unexpected (found : Option Lexeme) (wanted : String) :
    Takes m (Parser.unexpected found wanted) n := by
  cases found <;> exact .fail _

theorem TakesAt.bind {x : Parser α} {f : α → Parser β} (hx : TakesAt t? m x n)
    (hf : ∀ a, Takes (n a) (f a) k) : TakesAt t? m (x >>= f) k := by
  intro s b s'' ht hp
  obtain ⟨a, s', ha, hb⟩ := exists_of_bind_ok hp
  obtain ⟨first, hfirst, hn⟩ := hx s a s' ht ha
  obtain ⟨second, hsecond, hk⟩ := hf a _ s' b s'' rfl hb
  refine ⟨first ++ second, by rw [hfirst, hsecond, List.append_assoc], ?_⟩
  rw [nestAll_append, hn, Option.bind_some, hk]

theorem Takes.bind {x : Parser α} {f : α → Parser β} (hx : Takes m x n)
    (hf : ∀ a, Takes (n a) (f a) k) : Takes m (x >>= f) k :=
  fun t? => (hx t?).bind hf

theorem Takes.add {p : Parser α} (h : Takes m p n) (k : Nat) :
    Takes (m + k) p fun a => n a + k := by
  intro t? s a s' ht hp
  obtain ⟨taken, hrest, hn⟩ := h t? s a s' ht hp
  exact ⟨taken, hrest, nestAll_add hn k⟩

theorem Steady.takesFrom {p : Parser α} (h : Steady p) (m : Nat) :
    Takes (m + 1) p fun _ => m + 1 := by
  rw [Nat.add_comm]
  exact h.takes.add m

/-- Steady parsers leave the number of open brackets as it is. -/
theorem Takes.next {x : Parser α} {f : α → Parser β} [hx : Steady x]
    (hf : ∀ a, Takes (m + 1) (f a) k) : Takes (m + 1) (x >>= f) k :=
  .bind (hx.takesFrom m) hf

/-- Looking at the next token takes nothing. -/
theorem Takes.peek_bind {f : Option Token → Parser β} (hf : ∀ t?, TakesAt t? m (f t?) k) :
    Takes m (peek >>= f) k := by
  intro t? s b s' ht hp
  obtain ⟨u?, u, hu, hb⟩ := exists_of_bind_ok hp
  rw [peek] at hu
  rcases hrest : s.rest with - | ⟨l, rest⟩ <;> rw [hrest] at hu
  · rcases hfault : s.fault with - | fault <;> rw [hfault] at hu
    · cases hu
      rw [← hrest]
      exact hf _ s b s' (by rw [AtToken, hrest]; rfl) hb
    · cases hu
  · cases hu
    rw [← hrest]
    exact hf _ s b s' (by rw [AtToken, hrest]; rfl) hb

/-- Taking the next token, if what comes then refuses those that cannot stand there. -/
theorem TakesAt.next_bind {f : Option Lexeme → Parser β}
    (hsome : ∀ l, t? = some l.token →
      (∃ m', l.token.nest m = some m' ∧ Takes m' (f (some l)) k) ∨
        ∀ s b s', f (some l) s ≠ .ok (b, s'))
    (hnone : t? = none → Takes m (f none) k) : TakesAt t? m (Parser.next >>= f) k := by
  intro s b s' ht hp
  rcases next_ok hp with ⟨hrest, hb⟩ | ⟨l, rest, hrest, hb⟩
  · rw [AtToken, hrest] at ht
    exact hnone ht.symm _ s b s' rfl hb
  · rw [AtToken, hrest] at ht
    rcases hsome l ht.symm with ⟨m', hm', htakes⟩ | hnever
    · obtain ⟨taken, htaken, hk⟩ := htakes _ _ b s' rfl hb
      refine ⟨l :: taken, by rw [hrest, List.cons_append, ← htaken], ?_⟩
      rw [nestAll, hm', Option.bind_some, hk]
    · exact absurd hb (hnever _ _ _)

end Rules

/-! ### Primitives -/

namespace Steady

instance pure (a : α) : Steady (Pure.pure a : Parser α) := ⟨.pure rfl⟩

instance fail (text : String) : Steady (Parser.fail text : Parser α) := ⟨.fail text⟩

instance unexpected (found : Option Lexeme) (wanted : String) :
    Steady (Parser.unexpected found wanted : Parser α) := ⟨.unexpected found wanted⟩

instance bind {x : Parser α} {f : α → Parser β} [hx : Steady x] [hf : ∀ a, Steady (f a)] :
    Steady (x >>= f) := ⟨hx.takes.bind fun a => (hf a).takes⟩

instance map {f : α → β} {x : Parser α} [hx : Steady x] : Steady (f <$> x) :=
  bind (f := fun a => Pure.pure (f a))

instance ite {c : Prop} [Decidable c] {x y : Parser α} [hx : Steady x] [hy : Steady y] :
    Steady (if c then x else y) := by
  split
  · exact hx
  · exact hy

/-- A parser that only changes what is not a token. -/
theorem of_rest {p : Parser α} (h : ∀ s a s', p s = .ok (a, s') → s'.rest = s.rest) : Steady p := by
  refine ⟨fun t? s a s' _ hp => ⟨[], ?_, rfl⟩⟩
  rw [h s a s' hp, List.nil_append]

instance get : Steady (get : Parser ParserState) := of_rest fun s a s' h => by cases h; rfl

end Steady

instance steady_nextLine : Steady nextLine := by
  refine .of_rest fun s a s' h => ?_
  obtain ⟨t, u, ht, hline⟩ := exists_of_bind_ok h
  cases ht
  rcases hrest : s.rest with - | ⟨l, rest⟩ <;> rw [hrest] at hline <;> cases hline <;> exact hrest

instance steady_lastLine : Steady lastLine := by
  unfold lastLine
  infer_instance

instance steady_peek : Steady peek := by
  rw [← bind_pure peek]
  exact ⟨.peek_bind fun _ => .pure rfl⟩

instance steady_isNext (token : Token) : Steady (isNext token) := by
  unfold isNext
  infer_instance

theorem takes_expect {token : Token} {m d : Nat} (h : token.nest m = some d) (wanted : String) :
    Takes m (expect token wanted) fun _ => d := by
  unfold expect
  refine fun t? => .next_bind (fun l _ => ?_) fun _ => .unexpected none wanted
  dsimp only
  split
  · rename_i htoken
    exact .inl ⟨d, htoken ▸ h, .pure rfl⟩
  · exact .inr fun s b s' hp => by cases hp

/-- Skipping a token that is not there takes nothing. -/
theorem takes_skip {token : Token} {m d : Nat} (h : token.nest m = some d) :
    Takes m (skip token) fun isThere => if isThere then d else m := by
  unfold skip isNext
  rw [bind_assoc]
  refine .peek_bind fun t? => ?_
  rw [pure_bind]
  by_cases ht : t? = some token
  · rw [ht, if_pos BEq.rfl]
    exact .next_bind (fun l hl => .inl ⟨d, Option.some.inj hl ▸ h, .pure rfl⟩) nofun
  · rw [if_neg (by simpa using ht)]
    exact .pure rfl

instance steady_expect (token : Token) [htoken : token.Flat] (wanted : String) :
    Steady (expect token wanted) := ⟨takes_expect (htoken.nest 0) wanted⟩

instance steady_skip (token : Token) [htoken : token.Flat] : Steady (skip token) := by
  refine ⟨fun t? s a s' ht hp => ?_⟩
  obtain ⟨taken, hrest, hn⟩ := takes_skip (htoken.nest 0) t? s a s' ht hp
  exact ⟨taken, hrest, by simpa using hn⟩

instance steady_skipWord (word : String) : Steady (skipWord word) := steady_skip _

instance steady_skipSymbol (text : String) [Token.Flat (.symbol text)] :
    Steady (skipSymbol text) := steady_skip _

instance steady_expectSymbol (text : String) [Token.Flat (.symbol text)] :
    Steady (expectSymbol text) := steady_expect _ _

instance steady_identifier : Steady identifier := by
  unfold identifier
  refine ⟨fun t? => .next_bind (fun l _ => ?_) fun _ => .unexpected none _⟩
  obtain ⟨token, line⟩ := l
  cases token with
  | name text => exact .inl ⟨1, rfl, .pure rfl⟩
  | _ => exact .inr fun s b s' hp => by cases hp

instance steady_nested {p : Parser α} [hp : Steady p] : Steady (nested p) := by
  refine ⟨fun t? s a s' ht h => ?_⟩
  obtain ⟨t, htaken, hrest⟩ := rest_nested h
  rw [hrest]
  exact hp.takes t? s.deeper a t ht htaken

/-! ### Expressions -/

/-- Taking a token that opens and closes nothing. -/
theorem TakesAt.next_flat {token : Token} [htoken : token.Flat] {m : Nat} {k : β → Nat}
    {f : Option Lexeme → Parser β} (hf : ∀ l, Takes (m + 1) (f (some l)) k) :
    TakesAt (some token) (m + 1) (Parser.next >>= f) k :=
  .next_bind (fun l hl => .inl ⟨m + 1, Option.some.inj hl ▸ htoken.nest m, hf l⟩) nofun

theorem Token.flat_string (text : String) : Token.Flat (.string text) := ⟨fun _ => rfl⟩

instance steady_adjacentStrings (fuel : Nat) (text : String) :
    Steady (adjacentStrings fuel text) := by
  induction fuel generalizing text with
  | zero => exact .fail _
  | succ fuel ih =>
      unfold adjacentStrings
      refine ⟨.peek_bind fun t? => ?_⟩
      split
      · rename_i more
        have := Token.flat_string more
        exact .next_flat fun l => (ih _).takes
      · exact .pure rfl

instance steady_dottedName (fuel : Nat) : Steady (dottedName fuel) := by
  induction fuel with
  | zero => exact .fail _
  | succ fuel ih =>
      unfold dottedName
      infer_instance

theorem flat_of_operator? {level : Nat} {token : Token} {op : Expr → Expr → Expr}
    (h : operator? level token = some op) : token.Flat := by
  unfold operator? at h
  split at h <;> first | exact ⟨fun _ => rfl⟩ | cases h

theorem flat_of_comparison? {token : Token} {op : Operator}
    (h : comparison? token = some op) : token.Flat := by
  unfold comparison? at h
  split at h <;> first | exact ⟨fun _ => rfl⟩ | cases h

theorem flat_of_literal? {token : Token} {v : Value} (h : literal? token = some v) :
    token.Flat := by
  unfold literal? at h
  split at h <;> first | exact ⟨fun _ => rfl⟩ | cases h

/-- What stands in brackets up to the closing one: nothing, or behind a comma unless it comes first
something more, with the rest. -/
theorem takes_listing {close : String} (hclose : nestSymbol close 1 = some 0) (first : Bool)
    {more : Parser (List α)} (hmore : Takes 1 more fun _ => 0) :
    Takes 1 (do
      if ← skipSymbol close then return []
      if !first then
        expectSymbol ","
        if ← skipSymbol close then return []
      more) fun _ => 0 := by
  have hskip : Takes 1 (skipSymbol close) fun isEnd => if isEnd then 0 else 1 := takes_skip hclose
  refine .bind hskip fun isEnd => ?_
  cases isEnd
  · cases first
    · refine .next fun _ => .bind hskip fun isEnd => ?_
      cases isEnd
      · exact hmore
      · exact .pure rfl
    · exact hmore
  · exact .pure rfl

/-- What stands in parentheses behind the opening one. -/
theorem takes_parentheses {fuel : Nat} (hexpr : Steady (expr fuel))
    (hitems : Takes 1 (items fuel ")" false) fun _ => 0) (line : Nat) :
    Takes 1 (do
      if ← skipSymbol ")" then return .const line (.list [])
      else
        let e ← expr fuel
        if ← isNext (.symbol ",") then
          let rest ← items fuel ")" false
          return listOf line (e :: rest)
        else
          expectSymbol ")"
          return e) fun _ => 0 := by
  refine .bind (takes_skip (d := 0) rfl) fun isEmpty => ?_
  cases isEmpty
  · refine .next fun e => .next fun isTuple => ?_
    cases isTuple
    · exact .bind (takes_expect rfl _) fun _ => .pure rfl
    · exact .bind hitems fun rest => .pure rfl
  · exact .pure rfl

mutual

theorem steady_expr : ∀ fuel, Steady (expr fuel)
  | 0 => by
      unfold expr
      exact .fail _
  | fuel + 1 => by
      have hchoice := steady_choice fuel
      unfold expr
      infer_instance

theorem steady_choice : ∀ fuel, Steady (choice fuel)
  | 0 => by
      unfold choice
      exact .fail _
  | fuel + 1 => by
      have hlevel := steady_level fuel
      have hconditions := steady_conditions fuel
      unfold choice
      infer_instance

theorem steady_conditions : ∀ fuel line e, Steady (conditions fuel line e)
  | 0, _, _ => by
      unfold conditions
      exact .fail _
  | fuel + 1, line, e => by
      have hlevel := steady_level fuel
      have hchoice := steady_choice fuel
      have hconditions := steady_conditions fuel
      unfold conditions
      infer_instance

theorem steady_level : ∀ fuel n, Steady (level fuel n)
  | 0, _ => by
      unfold level
      exact .fail _
  | fuel + 1, n => by
      have hlevel := steady_level fuel
      have hcomparisons := steady_comparisons fuel
      have hoperations := steady_operations fuel
      have hunary := steady_unary fuel
      have hbehind := steady_postfix fuel
      have hfilters := steady_filters fuel
      unfold level
      infer_instance

theorem steady_comparisons : ∀ fuel, Steady (comparisons fuel)
  | 0 => by
      unfold comparisons
      exact .fail _
  | fuel + 1 => by
      have hlevel := steady_level fuel
      have hcomparisons := steady_comparisons fuel
      unfold comparisons
      refine ⟨.peek_bind fun t? => ?_⟩
      split
      · exact .pure rfl
      · simp only [pure_bind]
        split
        · rename_i htoken
          subst htoken
          exact .next_flat fun l => Steady.takes
        · split
          · have := flat_of_comparison? ‹_›
            exact .next_flat fun l => Steady.takes
          · exact .pure rfl

theorem steady_operations : ∀ fuel n a, Steady (operations fuel n a)
  | 0, _, _ => by
      unfold operations
      exact .fail _
  | fuel + 1, n, a => by
      have hlevel := steady_level fuel
      have hoperations := steady_operations fuel
      unfold operations
      refine ⟨.peek_bind fun t? => ?_⟩
      split
      · exact .pure rfl
      · split
        · have := flat_of_operator? ‹_›
          exact .next_flat fun l => Steady.takes
        · exact .pure rfl

theorem steady_unary : ∀ fuel, Steady (unary fuel)
  | 0 => by
      unfold unary
      exact .fail _
  | fuel + 1 => by
      have hunary := steady_unary fuel
      have hprimary := steady_primary fuel
      unfold unary
      infer_instance

theorem steady_primary : ∀ fuel, Steady (primary fuel)
  | 0 => by
      unfold primary
      exact .fail _
  | fuel + 1 => by
      have hexpr := steady_expr fuel
      have hitems := takes_items fuel
      have hentries := takes_entries fuel
      unfold primary
      refine ⟨fun t? => .next_bind (fun l _ => ?_) fun _ => .unexpected none _⟩
      obtain ⟨token, line⟩ := l
      cases hliteral : literal? token with
      | some v =>
          refine .inl ⟨1, (flat_of_literal? hliteral).nest 0, ?_⟩
          simp only [hliteral]
          split
          · exact Steady.takes
          · exact Steady.takes
          · cases ‹some v = none›
      | none =>
        simp only [hliteral]
        split
        · exact .inl ⟨1, rfl, Steady.takes⟩
        · exact .inl ⟨2, rfl, (takes_parentheses hexpr (hitems ")" false (.inl rfl)) line).add 1⟩
        · exact .inl ⟨2, rfl, .bind ((hitems "]" true (.inr rfl)).add 1) fun rest => .pure rfl⟩
        · exact .inl ⟨2, rfl, .bind ((hentries true).add 1) fun rest => .pure rfl⟩
        · exact .inr fun s b s' hp => by cases hp

theorem takes_items : ∀ fuel close first, close = ")" ∨ close = "]" →
    Takes 1 (items fuel close first) fun _ => 0
  | 0, _, _, _ => by
      unfold items
      exact .fail _
  | fuel + 1, close, first, h => by
      have hexpr := steady_expr fuel
      have hitems := takes_items fuel
      unfold items
      refine takes_listing (by rcases h with rfl | rfl <;> rfl) first ?_
      exact .next fun e => .bind (hitems close false h) fun rest => .pure rfl

theorem takes_entries : ∀ fuel first, Takes 1 (entries fuel first) fun _ => 0
  | 0, _ => by
      unfold entries
      exact .fail _
  | fuel + 1, first => by
      have hexpr := steady_expr fuel
      have hentries := takes_entries fuel
      unfold entries
      refine takes_listing rfl first ?_
      refine .next fun key => .next fun _ => .next fun value => ?_
      exact .bind (hentries false) fun rest => .pure rfl

theorem steady_postfix : ∀ fuel line e, Steady (postfix_ fuel line e)
  | 0, _, _ => by
      unfold postfix_
      exact .fail _
  | fuel + 1, line, e => by
      have hexpr := steady_expr fuel
      have hbehind := steady_postfix fuel
      have harguments := steady_arguments fuel
      unfold postfix_
      refine ⟨.next fun isAttribute => ?_⟩
      cases isAttribute
      · rw [if_neg Bool.false_ne_true]
        refine .bind (takes_skip (d := 2) rfl) fun isSubscript => ?_
        cases isSubscript
        · simp only [Bool.false_eq_true, if_false]
          exact Steady.takes
        -- Whichever parts of a slice there are, the bracket is closed behind them.
        · have hend (e : Expr) :
              Takes 2 (expectSymbol "]" >>= fun _ => postfix_ fuel line e) fun _ => 1 :=
            .bind (takes_expect rfl _) fun _ => (hbehind line e).takes
          rw [if_pos rfl]
          refine .next fun isOpen => ?_
          extract_lets from_
          have hfrom (start : Option Expr) : Takes 2 (from_ start) fun _ => 1 := by
            refine .next fun isSlice => ?_
            split
            · refine .next fun isEnd => .next fun isStep => ?_
              extract_lets to_
              have hto (stop : Option Expr) : Takes 2 (to_ stop) fun _ => 1 := by
                refine .next fun hasStep => ?_
                extract_lets by_
                have hby (step : Option Expr) : Takes 2 (by_ step) fun _ => 1 := hend _
                split
                · refine .next fun isEnd => ?_
                  split <;> exact .next hby
                · exact .next hby
              split <;> exact .next hto
            · refine .bind (takes_expect rfl _) fun _ => ?_
              split
              · exact (hbehind line _).takes
              · exact .fail _
          split <;> exact .next hfrom
      · rw [if_pos rfl]
        refine fun t? => .next_bind (fun l _ => ?_) fun _ => .unexpected none _
        obtain ⟨token, line'⟩ := l
        cases token with
        | name name => exact .inl ⟨1, rfl, Steady.takes⟩
        | int n => exact .inl ⟨1, rfl, Steady.takes⟩
        | _ => exact .inr fun s b s' hp => by cases hp

theorem steady_filters : ∀ fuel e, Steady (filters fuel e)
  | 0, _ => by
      unfold filters
      exact .fail _
  | fuel + 1, e => by
      have harguments := steady_arguments fuel
      have htest := steady_testArguments fuel
      have hfilters := steady_filters fuel
      unfold filters
      infer_instance

theorem steady_testArguments : ∀ fuel, Steady (testArguments fuel)
  | 0 => by
      unfold testArguments
      exact .fail _
  | fuel + 1 => by
      have harguments := steady_arguments fuel
      have hunary := steady_unary fuel
      have hbehind := steady_postfix fuel
      unfold testArguments
      refine @Steady.bind _ _ _ _ _ fun isOpen => ?_
      split
      · infer_instance
      · refine @Steady.bind _ _ _ _ _ fun t? => ?_
        split <;> infer_instance

theorem steady_arguments : ∀ fuel, Steady (arguments fuel)
  | 0 => by
      unfold arguments
      exact .fail _
  | fuel + 1 => by
      have hmore := takes_moreArguments fuel
      unfold arguments
      exact ⟨.bind (takes_expect rfl _) fun _ => (hmore true false).add 1⟩

theorem takes_moreArguments : ∀ fuel first named,
    Takes 1 (moreArguments fuel first named) fun _ => 0
  | 0, _, _ => by
      unfold moreArguments
      exact .fail _
  | fuel + 1, first, named => by
      have hexpr := steady_expr fuel
      have hlevel := steady_level fuel
      have hmore := takes_moreArguments fuel
      unfold moreArguments
      refine takes_listing rfl first ?_
      refine .next fun isNamed => ?_
      split
      · exact .next fun e => .bind (hmore false true) fun rest => .pure rfl
      · refine .next fun isSpread => ?_
        split
        · exact .next fun e => .bind (hmore false named) fun rest => .pure rfl
        · refine .next fun e => ?_
          split
          · refine .next fun isNamed => ?_
            split
            · exact .next fun e => .bind (hmore false true) fun rest => .pure rfl
            · split
              · exact .fail _
              · exact .bind (hmore false named) fun rest => .pure rfl
          · split
            · exact .fail _
            · exact .bind (hmore false named) fun rest => .pure rfl

end

attribute [instance] steady_expr

end Parser

end QueryTemplate.Template
