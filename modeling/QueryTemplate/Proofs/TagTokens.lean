import QueryTemplate.Proofs.Lexing
import QueryTemplate.Proofs.TagBalance

/-!
The tokens of a tag and the brackets in its text. If a text ends outside string literals and a bracket
or the delimiter of a tag follows it, every token in it ends in front of that, and leads to a place
outside string literals, with as many brackets open as the lexer counts.
-/

namespace QueryTemplate

open Instrument

namespace Template.Literal

/-- A character that neither opens nor closes anything in a tag, nor ends it. -/
def isPlain (x : Char) : Bool :=
  isInert x && x != '%'

theorem isPlain_of_nextState {base : Nat} {x : Char} {rest : List Char} {state last : NumberState}
    (h : nextState base x rest state = some last) : isPlain x = true := by
  cases hplain : isPlain x with
  | true => rfl
  | false =>
      simp only [isPlain, isInert, List.contains_cons, List.contains_nil, Bool.or_false,
        Bool.and_eq_false_iff, Bool.not_eq_false', Bool.or_eq_true, beq_iff_eq,
        bne_eq_false_iff_eq] at hplain
      have hnone : nextState base x rest state = none := by
        rcases hplain with (rfl | rfl | rfl | rfl | rfl | rfl | rfl | rfl) | rfl <;>
          cases state <;> simp [nextState, Text.isAsciiDigit, hexDigit?]
      rw [hnone] at h
      cases h

theorem takeNumber_eq (base : Nat) (state : NumberState) (text : List Char) :
    (takeNumber base state text).1 ++ (takeNumber base state text).2.2 = text ∧
      ∀ x ∈ (takeNumber base state text).1, isPlain x = true := by
  induction text generalizing state with
  | nil => simp [takeNumber]
  | cons c rest ih =>
      rw [takeNumber]
      split
      · simp
      · rename_i next hnext
        obtain ⟨happend, hplain⟩ := ih next
        exact ⟨congrArg (c :: ·) happend, List.forall_mem_cons.mpr
          ⟨isPlain_of_nextState hnext, hplain⟩⟩

/-- The base of a number literal, and its digits. -/
def numberBase : List Char → Nat × List Char
  | '0' :: 'b' :: rest => (2, rest)
  | '0' :: 'B' :: rest => (2, rest)
  | '0' :: 'o' :: rest => (8, rest)
  | '0' :: 'O' :: rest => (8, rest)
  | '0' :: 'x' :: rest => (16, rest)
  | '0' :: 'X' :: rest => (16, rest)
  | text => (10, text)

/-- A number literal, given what `takeNumber` makes of its digits. -/
def numberOf (base : Nat) (found : List Char × NumberState × List Char) :
    Except String (Token × List Char) :=
  let (body, state, rest) := found
  if body.getLast? = some '_' then .error "underscore may not occur at end of number"
  else
    let body := body.filter (· != '_')
    if state = .integer || state = .based then
      match digitsIn? base body with
      | some n =>
        if n < Nat.pow 2 128 then .ok (.int n, rest) else .error "invalid integer (too large)"
      | none => .error "invalid integer"
    else
      match float? body with
      | some token => .ok (token, rest)
      | none => .error "invalid float"

theorem number_eq (text : List Char) :
    number text = numberOf (numberBase text).1 (takeNumber (numberBase text).1
      (if (numberBase text).1 = 10 then .integer else .based) (numberBase text).2) := rfl

theorem numberBase_eq (text : List Char) :
    ∃ mark, text = mark ++ (numberBase text).2 ∧ (∀ x ∈ mark, isPlain x = true) ∧
      (mark = [] → (numberBase text).1 = 10) := by
  rw [numberBase.eq_def]
  split
  · exact ⟨['0', 'b'], rfl, List.all_eq_true.mp rfl, by simp⟩
  · exact ⟨['0', 'B'], rfl, List.all_eq_true.mp rfl, by simp⟩
  · exact ⟨['0', 'o'], rfl, List.all_eq_true.mp rfl, by simp⟩
  · exact ⟨['0', 'O'], rfl, List.all_eq_true.mp rfl, by simp⟩
  · exact ⟨['0', 'x'], rfl, List.all_eq_true.mp rfl, by simp⟩
  · exact ⟨['0', 'X'], rfl, List.all_eq_true.mp rfl, by simp⟩
  · exact ⟨[], rfl, List.forall_mem_nil _, fun _ => rfl⟩

/-- The tokens of number literals. -/
def IsNumber (token : Token) : Prop :=
  (∃ n, token = .int n) ∨ ∃ digits exponent, token = .float digits exponent

theorem numberOf_eq_ok {base : Nat} {found : List Char × NumberState × List Char} {token : Token}
    {rest : List Char} (h : numberOf base found = .ok (token, rest)) :
    rest = found.2.2 ∧ IsNumber token := by
  rw [numberOf] at h
  split at h
  · cases h
  dsimp only at h
  split at h
  · split at h
    · split at h
      · cases h
        exact ⟨rfl, .inl ⟨_, rfl⟩⟩
      · cases h
    · cases h
  · split at h
    · rename_i found' hfloat
      cases h
      obtain ⟨exponent, -, heq⟩ := Option.map_eq_some_iff.mp hfloat
      cases heq
      exact ⟨rfl, .inr ⟨_, _, rfl⟩⟩
    · cases h

/-- The characters of a number literal. -/
theorem number_eq_ok {c : Char} {text rest : List Char} {token : Token}
    (hdigit : Text.isAsciiDigit c = true) (h : number (c :: text) = .ok (token, rest)) :
    ∃ run, c :: text = run ++ rest ∧ run ≠ [] ∧ (∀ x ∈ run, isPlain x = true) ∧
      IsNumber token := by
  obtain ⟨mark, hmark, hplain, hbase⟩ := numberBase_eq (c :: text)
  rw [number_eq] at h
  obtain ⟨rfl, htoken⟩ := numberOf_eq_ok h
  obtain ⟨hdigits, hplain'⟩ := takeNumber_eq (numberBase (c :: text)).1
    (if (numberBase (c :: text)).1 = 10 then .integer else .based) (numberBase (c :: text)).2
  refine ⟨_, by rw [List.append_assoc, hdigits]; exact hmark, fun hnil => ?_, fun x hx => ?_,
    htoken⟩
  · obtain ⟨rfl, hnone⟩ := List.append_eq_nil_iff.mp hnil
    rw [List.nil_append] at hmark
    obtain ⟨state, hstate⟩ : ∃ state, nextState 10 c text .integer = some state := by
      rw [nextState.eq_def]
      split
      · exact ⟨_, rfl⟩
      · exact ⟨_, rfl⟩
    rw [hbase rfl, ← hmark, if_pos rfl, takeNumber, hstate] at hnone
    cases hnone
  · exact (List.mem_append.mp hx).elim (hplain x) (hplain' x)

/-- A string literal in a text that does not end in one ends in the text. -/
theorem takeString_eq_some {quote : Char} {depth last : Nat} {text more body rest : List Char}
    (htext : (Place.quoted depth quote).after text = some (.outside last))
    (h : takeString quote (text ++ more) = some (body, rest)) :
    ∃ left, text = body ++ quote :: left ∧ rest = left ++ more ∧
      (Place.quoted depth quote).after (body ++ [quote]) = some (.outside depth) := by
  -- An escape takes two characters, so the induction is on the length of the text.
  induction hlen : text.length using Nat.strongRecOn generalizing text body with
  | ind n ih =>
      subst hlen
      cases text with
      | nil => cases htext
      | cons x text =>
          rw [Place.after, Place.next] at htext
          split at htext
          · subst_vars
            cases text with
            | nil => cases htext
            | cons y text =>
                rw [List.cons_append, List.cons_append, takeString] at h
                obtain ⟨⟨tail, after⟩, htail, heq⟩ := Option.map_eq_some_iff.mp h
                cases heq
                obtain ⟨left, rfl, rfl, hbody⟩ := ih _ (by grind) htext htail rfl
                exact ⟨left, rfl, rfl, hbody⟩
          · rename_i hescape
            have hstep : takeString quote (x :: (text ++ more)) =
                if x == quote then some ([], text ++ more)
                else (takeString quote (text ++ more)).map (Prod.map (x :: ·) id) := by
              rw [takeString.eq_def]
              split
              · contradiction
              · exact absurd (List.cons.inj ‹_›).1 hescape
              · cases ‹x :: _ = _ :: _›
                rfl
            rw [List.cons_append, hstep] at h
            split at htext
            · rename_i hquote
              rw [if_pos (beq_iff_eq.mpr hquote)] at h
              cases h
              refine ⟨text, by rw [hquote]; rfl, rfl, ?_⟩
              rw [List.nil_append, Place.after, Place.next, if_neg (hquote ▸ hescape), if_pos rfl]
              rfl
            · rename_i hquote
              rw [if_neg (by simpa using hquote)] at h
              obtain ⟨⟨tail, after⟩, htail, heq⟩ := Option.map_eq_some_iff.mp h
              cases heq
              obtain ⟨left, rfl, rfl, hbody⟩ := ih _ (Nat.lt_succ_self _) htext htail rfl
              refine ⟨left, rfl, rfl, ?_⟩
              dsimp only
              rw [List.cons_append, Place.after, Place.next, if_neg hescape, if_neg hquote]
              exact hbody

end Template.Literal

namespace Template.Lexer

variable {depth last : Nat} {stop : Char} {body more rest : List Char}

/-- A run without the delimiter ends in front of it. -/
theorem exists_of_append_eq {run : List Char} (h : body ++ stop :: more = run ++ rest)
    (hrun : stop ∉ run) : ∃ left, body = run ++ left ∧ rest = left ++ stop :: more := by
  rcases List.append_eq_append_iff.mp h with ⟨last, rfl, hlast⟩ | ⟨left, rfl, hleft⟩
  · cases last with
    | nil => exact ⟨[], by simp, by simpa using hlast.symm⟩
    | cons d last =>
        cases (List.cons.inj hlast).1
        exact absurd (List.mem_append_right _ List.mem_cons_self) hrun
  · exact ⟨left, rfl, hleft⟩

/-- A symbol is either a single character, which counts as the bracket that it is, or it is two
characters that are no brackets. -/
def fits (s : String) : Bool :=
  match s.toList with
  | [x] => !isQuote x &&
      balance s == if isOpening x then 1 else if isClosing x then -1 else 0
  | [x, y] => Literal.isPlain x && Literal.isPlain y && balance s == 0
  | _ => false

theorem fits_of_mem : ∀ s ∈ symbols, fits s = true := by
  decide

theorem symbol?_eq_some {text : List Char} {s : String} (h : symbol? text = some (s, rest)) :
    fits s = true ∧ text = s.toList ++ rest := by
  obtain ⟨s', hmem, hs⟩ := List.exists_of_findSome?_eq_some h
  obtain ⟨rest', hhead, heq⟩ := Option.map_eq_some_iff.mp hs
  cases heq
  exact ⟨fits_of_mem _ hmem, Text.dropHead?_eq_some_iff.mp hhead⟩

theorem isInert_of_isPlain {x : Char} (h : Literal.isPlain x = true) : isInert x = true :=
  (Bool.and_eq_true_iff.mp h).1

theorem isPlain_of_isAsciiSpace {x : Char} (h : Text.isAsciiSpace x = true) :
    Literal.isPlain x = true := by
  simp only [Text.isAsciiSpace, Bool.or_eq_true, beq_iff_eq] at h
  rcases h with (((rfl | rfl) | rfl) | rfl) | rfl <;> rfl

/-- A run without brackets and quotes. -/
theorem exists_of_isPlain {run : List Char} (hstop : Literal.isPlain stop = false)
    (h : body ++ stop :: more = run ++ rest) (hrun : ∀ x ∈ run, Literal.isPlain x = true)
    (depth : Nat) :
    ∃ left, body = run ++ left ∧ rest = left ++ stop :: more ∧
      (Place.outside depth).after run = some (.outside depth) := by
  have hmem : stop ∉ run := fun hmem => by
    rw [hrun stop hmem] at hstop
    cases hstop
  obtain ⟨left, rfl, rfl⟩ := exists_of_append_eq h hmem
  exact ⟨left, rfl, rfl, Place.after_inert fun x hx => isInert_of_isPlain (hrun x hx)⟩

/-- White space at the front. -/
theorem exists_dropWhile_isAsciiSpace {x : Char} (hstop : Literal.isPlain stop = false)
    (hspace : Text.isAsciiSpace x = true) (body more : List Char) (depth : Nat) :
    ∃ passed left, x :: body = passed ++ left ∧ passed ≠ [] ∧
      (x :: (body ++ stop :: more)).dropWhile Text.isAsciiSpace = left ++ stop :: more ∧
      (Place.outside depth).after passed = some (.outside depth) := by
  have hsplit : (x :: body).takeWhile Text.isAsciiSpace ++ (x :: body).dropWhile Text.isAsciiSpace =
      x :: body := List.takeWhile_append_dropWhile
  have hplain : ∀ y ∈ (x :: body).takeWhile Text.isAsciiSpace, Literal.isPlain y = true := fun y hy =>
    isPlain_of_isAsciiSpace (List.all_eq_true.mp List.all_takeWhile y hy)
  refine ⟨_, _, hsplit.symm, ?_, ?_, Place.after_inert fun y hy => isInert_of_isPlain (hplain y hy)⟩
  · rw [List.takeWhile_cons, if_pos hspace]
    exact List.cons_ne_nil _ _
  · have hnot : Text.isAsciiSpace stop = false := by
      cases hspace : Text.isAsciiSpace stop with
      | false => rfl
      | true => rw [← hstop, isPlain_of_isAsciiSpace hspace]
    rw [← List.cons_append, List.dropWhile_append]
    split
    · rename_i hempty
      rw [List.isEmpty_iff.mp hempty, List.dropWhile_cons, if_neg (by simp [hnot])]
      rfl
    · rfl

/-- A symbol at the front. -/
theorem exists_of_symbol? {s : String} (hstop : Literal.isPlain stop = false)
    (hbody : (Place.outside depth).after body = some (.outside last)) (hne : body ≠ [])
    (h : symbol? (body ++ stop :: more) = some (s, rest)) :
    ∃ left, ∃ depth' : Nat, body = s.toList ++ left ∧ s.toList ≠ [] ∧ rest = left ++ stop :: more ∧
      (depth' : Int) = depth + balance s ∧
      (Place.outside depth).after s.toList = some (.outside depth') := by
  obtain ⟨hfits, htext⟩ := symbol?_eq_some h
  rw [fits] at hfits
  split at hfits
  · rename_i x hs
    simp only [Bool.and_eq_true, Bool.not_eq_true', beq_iff_eq] at hfits
    obtain ⟨hquote, hbalance⟩ := hfits
    obtain ⟨d, left, rfl⟩ := List.exists_cons_of_ne_nil hne
    rw [hs] at htext ⊢
    obtain ⟨rfl, rfl⟩ := List.cons.inj htext
    rw [Place.after, Place.next, hquote] at hbody
    rw [hbalance, Place.after, Place.next, hquote]
    by_cases hopening : isOpening d = true
    · refine ⟨left, depth + 1, rfl, List.cons_ne_nil _ _, rfl, ?_, ?_⟩
      · rw [if_pos hopening]
        rfl
      · simp [hopening, Place.after]
    · by_cases hclosing : isClosing d = true
      · have hdepth : depth ≠ 0 := by
          rintro rfl
          simp [hopening, hclosing] at hbody
        refine ⟨left, depth - 1, rfl, List.cons_ne_nil _ _, rfl, ?_, ?_⟩
        · rw [if_neg hopening, if_pos hclosing]
          omega
        · simp [hopening, hclosing, hdepth, Place.after]
      · refine ⟨left, depth, rfl, List.cons_ne_nil _ _, rfl, ?_, ?_⟩
        · rw [if_neg hopening, if_neg hclosing, Int.add_zero]
        · simp [hopening, hclosing, Place.after]
  · rename_i x y hs
    simp only [Bool.and_eq_true, beq_iff_eq] at hfits
    obtain ⟨⟨hx, hy⟩, hbalance⟩ := hfits
    rw [hs] at htext ⊢
    obtain ⟨left, rfl, rfl, hrun⟩ := exists_of_isPlain hstop htext (by simp [hx, hy]) depth
    exact ⟨left, depth, rfl, List.cons_ne_nil _ _, rfl, by rw [hbalance, Int.add_zero], hrun⟩
  · cases hfits

theorem isPlain_of_isNamePart {x : Char} (h : Text.isNamePart x = true) :
    Literal.isPlain x = true := by
  have hpercent : x ≠ '%' := by
    rintro rfl
    exact absurd h (by decide)
  rw [Literal.isPlain, Fragment.isInert_of_isNamePart h, Bool.true_and]
  exact bne_iff_ne.mpr hpercent

/-- What a token of a tag is read from: a symbol, a string literal, or a run that is a number literal
or a name and has neither brackets nor quotes. -/
theorem tagToken_cases {c : Cursor} {token : Token} (h : tagToken c = .ok (token, rest)) :
    (∃ s, token = .symbol s ∧ symbol? c.rest = some (s, rest)) ∨
      (∃ quote text string value, token = .string value ∧ c.rest = quote :: text ∧
        isQuote quote = true ∧ Literal.takeString quote text = some (string, rest)) ∨
      ∃ run, (Literal.IsNumber token ∨ ∃ name, token = .name name) ∧ c.rest = run ++ rest ∧
        run ≠ [] ∧ ∀ x ∈ run, Literal.isPlain x = true := by
  rw [tagToken] at h
  split at h
  · rename_i s rest' hsymbol
    cases h
    exact .inl ⟨s, rfl, hsymbol⟩
  split at h
  · cases h
  rename_i x text hrest
  split at h
  · -- A string literal.
    rename_i hquote
    split at h
    · cases h
    rename_i string rest' hstring
    split at h
    · cases h
      exact .inr (.inl ⟨x, text, string, _, rfl, hrest, by simpa [isQuote, or_comm] using hquote,
        hstring⟩)
    · cases h
  refine .inr (.inr ?_)
  split at h
  · -- A number literal.
    rename_i hdigit
    split at h
    · rename_i found hnumber
      cases h
      rw [hrest] at hnumber ⊢
      obtain ⟨run, htext, hrun, hplain, htoken⟩ := Literal.number_eq_ok hdigit hnumber
      exact ⟨run, .inl htoken, htext, hrun, hplain⟩
    · cases h
  · -- A name.
    obtain ⟨htext, hname⟩ := Text.takeName_eq c.rest
    split at h
    · cases h
    · rename_i name rest' hne htake
      cases h
      rw [htake] at htext hname
      refine ⟨name, .inr ⟨_, rfl⟩, htext.symm, fun hnil => hne hnil, fun y hy => ?_⟩
      exact isPlain_of_isNamePart (hname y hy)

/-- A token at the front of a text ends in it, and leads to a place outside string literals with as
many brackets open as the lexer counts. -/
theorem tagToken_balanced {c : Cursor} {token : Token} (hstop : Literal.isPlain stop = false)
    (hbody : (Place.outside depth).after body = some (.outside last)) (hne : body ≠ [])
    (hrest : c.rest = body ++ stop :: more) (h : tagToken c = .ok (token, rest)) :
    ∃ run left : List Char, ∃ depth' : Nat, body = run ++ left ∧ run ≠ [] ∧
      rest = left ++ stop :: more ∧ (depth' : Int) = depth + opened token ∧
      (Place.outside depth).after run = some (.outside depth') := by
  rcases tagToken_cases h with ⟨s, rfl, hsymbol⟩ |
    ⟨quote, text, string, value, rfl, htext, hquote, hstring⟩ | ⟨run, htoken, htext, hrun, hplain⟩
  · rw [hrest] at hsymbol
    obtain ⟨left, depth', hleft⟩ := exists_of_symbol? hstop hbody hne hsymbol
    exact ⟨_, left, depth', hleft⟩
  · -- The text does not end in a string literal, so the literal ends in the text.
    obtain ⟨x, body, rfl⟩ := List.exists_cons_of_ne_nil hne
    obtain ⟨rfl, rfl⟩ := List.cons.inj (hrest.symm.trans htext)
    rw [Place.after, Place.next, if_pos hquote] at hbody
    obtain ⟨left, rfl, rfl, hquoted⟩ := Literal.takeString_eq_some hbody hstring
    refine ⟨x :: string ++ [x], left, depth, by simp, by simp, rfl, (Int.add_zero _).symm, ?_⟩
    rw [List.cons_append, Place.after, Place.next, if_pos hquote]
    exact hquoted
  · have hopened : opened token = 0 := by
      rcases htoken with (⟨n, rfl⟩ | ⟨digits, exponent, rfl⟩) | ⟨name, rfl⟩ <;> rfl
    obtain ⟨left, hbody', hleft, hafter⟩ :=
      exists_of_isPlain hstop (hrest.symm.trans htext) hplain depth
    exact ⟨run, left, depth, hbody', hrun, hleft, by rw [hopened, Int.add_zero], hafter⟩

end Template.Lexer

end QueryTemplate
