import QueryTemplate.Template.Lexer
import QueryTemplate.Proofs.Fragments

/-!
How the lexer reads what it is given piece by piece: a space, a symbol, a name or a string inside a
tag, the end of a tag, and the text in front of one. Each lemma goes with any rest, so that the
tokens of a text are found by one after the other.
-/

namespace QueryTemplate

namespace Text

theorem dropHead?_cons_of_ne {h c : Char} (hne : h ≠ c) (head text : List Char) :
    dropHead? (h :: head) (c :: text) = none := if_neg hne

theorem dropWhile_isAsciiSpace {rest : List Char} (h : BeginsOutside isAsciiSpace rest) :
    (' ' :: rest).dropWhile isAsciiSpace = rest := by
  rw [List.dropWhile_cons, if_pos (by decide)]
  cases rest with
  | nil => rfl
  | cons c rest => rw [List.dropWhile_cons, if_neg (by rw [h c rfl]; exact Bool.false_ne_true)]

theorem isAsciiSpace_of_isNameStart {c : Char} (h : isNameStart c = true) :
    isAsciiSpace c = false := by
  have hcode := toNat_of_isNameStart h
  simp only [isAsciiSpace, Bool.or_eq_false_iff, beq_eq_false_iff_ne]
  refine ⟨⟨⟨⟨?_, ?_⟩, ?_⟩, ?_⟩, ?_⟩ <;> (rintro rfl; revert hcode; decide)

theorem isNameStart_head {c : Char} {more : List Char} (h : isIdentifier (c :: more) = true) :
    isNameStart c = true := by
  rw [isIdentifier, Bool.and_eq_true] at h
  exact h.1

theorem beginsOutside_isAsciiSpace {name : List Char} (h : isIdentifier name = true)
    (rest : List Char) : BeginsOutside isAsciiSpace (name ++ rest) := by
  cases name with
  | nil => contradiction
  | cons c more => exact beginsOutside_cons (isAsciiSpace_of_isNameStart (isNameStart_head h)) _

end Text

namespace Template.Literal

/-- A string without escapes ends at the first quote character. -/
theorem takeString_append {quote : Char} (hquote : quote ≠ '\\') {body : List Char}
    (hbody : quote ∉ body) (hescape : '\\' ∉ body) (rest : List Char) :
    takeString quote (body ++ quote :: rest) = some (body, rest) := by
  induction body with
  | nil =>
      rw [List.nil_append, takeString.eq_def]
      split
      · contradiction
      · rename_i heq
        exact absurd (List.cons.inj heq).1 hquote
      · rename_i heq
        obtain ⟨rfl, rfl⟩ := List.cons.inj heq
        simp
  | cons c body ih =>
      rw [List.mem_cons, not_or] at hbody hescape
      rw [List.cons_append, takeString.eq_def]
      split
      · contradiction
      · rename_i heq
        exact absurd (List.cons.inj heq).1.symm hescape.1
      · rename_i heq
        obtain ⟨rfl, rfl⟩ := List.cons.inj heq
        rw [if_neg (by simpa using Ne.symm hbody.1), ih hbody.2 hescape.2]
        rfl

theorem unescape_of_not_mem {body : List Char} (h : '\\' ∉ body) :
    unescape none body = some body := by
  induction body with
  | nil => rw [unescape]
  | cons c body ih =>
      rw [List.mem_cons, not_or] at h
      rw [unescape.eq_def]
      split
      case h_6 =>
        rename_i heq
        obtain ⟨rfl, rfl⟩ := List.cons.inj heq
        rw [if_neg (by simpa using Ne.symm h.1), ih h.2]
        rfl
      all_goals grind

end Template.Literal

namespace Template.Lexer

variable {ws : Whitespace} {isBlock : Bool} {depth : Int} {before rest : List Char} {line : Nat}

theorem Cursor.moveTo_append (before passed rest : List Char) (line : Nat) :
    (⟨before, passed ++ rest, line⟩ : Cursor).moveTo rest =
      ⟨passed.reverse ++ before, rest, line + Text.newlines passed⟩ := by
  simp [moveTo, advance]

/-- How a token changes the number of open brackets. -/
def opened : Token → Int
  | .symbol s => balance s
  | _ => 0

section

variable {c : Cursor} {x : Char} {text : List Char}

/-- White space inside a tag is passed over. -/
theorem lexTag_passes (hend : depth = 0 → tagEnd? isBlock c.rest = none) (hc : c.rest = x :: text)
    (hspace : Text.isAsciiSpace x = true) (fuel : Nat) :
    lexTag ws (fuel + 1) isBlock depth c =
      lexTag ws fuel isBlock depth (c.moveTo (c.rest.dropWhile Text.isAsciiSpace)) := by
  have hclose : (if depth = 0 then tagEnd? isBlock c.rest else none) = none := by
    split
    · exact hend ‹_›
    · rfl
  rw [lexTag]
  simp only [hclose]
  simp only [hc, hspace, if_true]

/-- What stands inside a tag behind white space, and is not its end, is a token. -/
theorem lexTag_reads (hend : depth = 0 → tagEnd? isBlock c.rest = none) (hc : c.rest = x :: text)
    (hspace : Text.isAsciiSpace x = false) (fuel : Nat) :
    lexTag ws (fuel + 1) isBlock depth c =
      match tagToken c with
      | .error fault => { fault := some fault }
      | .ok (token, rest) =>
        put token c.line (lexTag ws fuel isBlock (depth + opened token) (c.moveTo rest)) := by
  have hclose : (if depth = 0 then tagEnd? isBlock c.rest else none) = none := by
    split
    · exact hend ‹_›
    · rfl
  rw [lexTag]
  simp only [hclose]
  simp only [hc, hspace, Bool.false_eq_true, if_false]
  cases tagToken c with
  | error fault => rfl
  | ok found =>
      obtain ⟨token, rest⟩ := found
      cases token <;> simp [opened]

end

theorem tagEnd?_space : tagEnd? isBlock (' ' :: rest) = none := by
  cases isBlock <;> rfl

/-- A space inside a tag is passed over. -/
theorem lexTag_space (h : Text.BeginsOutside Text.isAsciiSpace rest) (fuel : Nat) :
    lexTag ws (fuel + 1) isBlock depth ⟨before, ' ' :: rest, line⟩ =
      lexTag ws fuel isBlock depth ⟨' ' :: before, rest, line⟩ := by
  have hmove : (⟨before, ' ' :: rest, line⟩ : Cursor).moveTo rest = ⟨' ' :: before, rest, line⟩ :=
    Cursor.moveTo_append before [' '] rest line
  rw [lexTag_passes (fun _ => tagEnd?_space) rfl (by decide), Text.dropWhile_isAsciiSpace h, hmove]

/-- A token inside a tag, which is not its end. -/
theorem lexTag_token {c : Char} {more : List Char} {token : Token}
    (hend : depth = 0 → tagEnd? isBlock (c :: more ++ rest) = none)
    (hspace : Text.isAsciiSpace c = false) (hline : Text.newlines (c :: more) = 0)
    (htoken : tagToken ⟨before, c :: more ++ rest, line⟩ = .ok (token, rest)) (fuel : Nat) :
    lexTag ws (fuel + 1) isBlock depth ⟨before, c :: more ++ rest, line⟩ =
      put token line (lexTag ws fuel isBlock (depth + opened token)
        ⟨(c :: more).reverse ++ before, rest, line⟩) := by
  have hmove := Cursor.moveTo_append before (c :: more) rest line
  rw [hline, Nat.add_zero] at hmove
  rw [lexTag_reads hend rfl hspace, htoken]
  dsimp only
  rw [hmove]

/-! ### Tokens of a tag -/

theorem symbol?_of_isNameStart {c : Char} (h : Text.isNameStart c = true) (rest : List Char) :
    symbol? (c :: rest) = none := by
  have hfirst : ∀ s ∈ symbols, s.toList.head?.any (!Text.isNameStart ·) = true := by decide
  rw [symbol?, List.findSome?_eq_none_iff]
  intro s hs
  have hs := hfirst s hs
  rw [Option.map_eq_none_iff]
  cases hlist : s.toList with
  | nil =>
      rw [hlist] at hs
      contradiction
  | cons d head =>
      refine Text.dropHead?_cons_of_ne (fun heq => ?_) head rest
      subst heq
      simp [hlist, h] at hs

theorem tagToken_name {name : List Char} (h : Text.isIdentifier name = true)
    (hrest : Text.BeginsOutside Text.isNamePart rest) (before : List Char) (line : Nat) :
    tagToken ⟨before, name ++ rest, line⟩ = .ok (.name (String.ofList name), rest) := by
  have htake := Text.takeName_append h hrest
  cases name with
  | nil => contradiction
  | cons c more =>
      have hstart := Text.isNameStart_head h
      have hquote : ¬(c == '"' || c == '\'') = true := by
        rw [Bool.or_eq_true, beq_iff_eq, beq_iff_eq]
        rintro (rfl | rfl) <;> (revert hstart; decide)
      have hdigit : ¬Text.isAsciiDigit c = true := fun hdigit => by
        have hcode := Text.toNat_of_isNameStart hstart
        have hcode' := Text.toNat_of_isAsciiDigit hdigit
        omega
      rw [tagToken]
      simp only [List.cons_append] at htake ⊢
      simp only [symbol?_of_isNameStart hstart, if_neg hquote, if_neg hdigit, htake]

theorem tagToken_string {text : List Char} (hquote : '"' ∉ text) (hescape : '\\' ∉ text)
    (before rest : List Char) (line : Nat) :
    tagToken ⟨before, '"' :: (text ++ '"' :: rest), line⟩ =
      .ok (.string (String.ofList text), rest) := by
  rw [tagToken]
  rw [show symbol? ('"' :: (text ++ '"' :: rest)) = none from rfl]
  simp only [BEq.rfl, Bool.true_or, if_true, Literal.takeString_append (by decide) hquote hescape,
    Literal.unescape_of_not_mem hescape]

theorem tagEnd?_of_isNameStart {c : Char} (h : Text.isNameStart c = true) (rest : List Char) :
    tagEnd? isBlock (c :: rest) = none := by
  have hcode := Text.toNat_of_isNameStart h
  have hne : c ≠ '-' ∧ c ≠ '+' ∧ c ≠ '%' ∧ c ≠ '}' := by
    refine ⟨?_, ?_, ?_, ?_⟩ <;> (rintro rfl; revert hcode; decide)
  cases isBlock <;> simp [tagEnd?, hne, Text.dropHead?, Ne.symm hne.2.2.1, Ne.symm hne.2.2.2]

/-- A symbol of one character. -/
theorem lexTag_symbol {c : Char} {s : String} (hsymbol : symbol? (c :: rest) = some (s, rest))
    (hend : tagEnd? isBlock (c :: rest) = none) (hspace : Text.isAsciiSpace c = false)
    (fuel : Nat) :
    lexTag ws (fuel + 1) isBlock depth ⟨before, c :: rest, line⟩ =
      put (.symbol s) line (lexTag ws fuel isBlock (depth + balance s) ⟨c :: before, rest, line⟩) := by
  have htoken : tagToken ⟨before, c :: rest, line⟩ = .ok (.symbol s, rest) := by
    rw [tagToken, hsymbol]
  have hline : Text.newlines [c] = 0 := by
    rw [Text.newlines, List.count_eq_zero, List.mem_singleton]
    rintro rfl
    contradiction
  exact lexTag_token (fun _ => hend) hspace hline htoken fuel

/-- A name inside a tag. -/
theorem lexTag_name {name : List Char} (h : Text.isIdentifier name = true)
    (hrest : Text.BeginsOutside Text.isNamePart rest) (fuel : Nat) :
    lexTag ws (fuel + 1) isBlock depth ⟨before, name ++ rest, line⟩ =
      put (.name (String.ofList name)) line
        (lexTag ws fuel isBlock depth ⟨name.reverse ++ before, rest, line⟩) := by
  have htoken := tagToken_name h hrest before line
  have hline : Text.newlines name = 0 := by
    rw [Text.newlines, List.count_eq_zero]
    intro hmem
    exact absurd (Text.isNamePart_of_mem h hmem) (by decide)
  cases name with
  | nil => contradiction
  | cons c more =>
      have hstart := Text.isNameStart_head h
      have hspace := Text.isAsciiSpace_of_isNameStart hstart
      rw [lexTag_token (fun _ => tagEnd?_of_isNameStart hstart (more ++ rest)) hspace hline htoken]
      simp [opened]

/-- A string inside a tag. -/
theorem lexTag_string {text : List Char} (hquote : '"' ∉ text) (hescape : '\\' ∉ text)
    (hline : Text.newlines text = 0) (fuel : Nat) :
    lexTag ws (fuel + 1) isBlock depth ⟨before, '"' :: (text ++ '"' :: rest), line⟩ =
      put (.string (String.ofList text)) line
        (lexTag ws fuel isBlock depth ⟨'"' :: (text.reverse ++ '"' :: before), rest, line⟩) := by
  have hshape : '"' :: (text ++ '"' :: rest) = '"' :: (text ++ ['"']) ++ rest := by simp
  have htoken := tagToken_string hquote hescape before rest line
  have hline' : Text.newlines ('"' :: (text ++ ['"'])) = 0 := by
    rw [Text.newlines] at hline ⊢
    simp [hline]
  have hend : tagEnd? isBlock ('"' :: (text ++ ['"']) ++ rest) = none := by
    cases isBlock <;> rfl
  rw [hshape] at htoken ⊢
  rw [lexTag_token (fun _ => hend) (by decide) hline' htoken]
  simp [opened]

/-- The end of an expression tag. -/
theorem lexTag_end (fuel : Nat) :
    lexTag ws (fuel + 1) false 0 ⟨before, '}' :: '}' :: rest, line⟩ =
      put .expressionEnd line (lexText ws fuel false ⟨'}' :: '}' :: before, rest, line⟩) := by
  have hmove : (⟨before, '}' :: '}' :: rest, line⟩ : Cursor).moveTo rest =
      ⟨'}' :: '}' :: before, rest, line⟩ := Cursor.moveTo_append before ['}', '}'] rest line
  have hend : tagEnd? false ('}' :: '}' :: rest) = some (.default, rest) := rfl
  rw [lexTag]
  simp [hend, hmove]

/-- The beginning of an expression tag. -/
theorem lexMarker_expression (fuel : Nat) :
    lexMarker ws (fuel + 1) .expression .default ⟨before, '{' :: '{' :: rest, line⟩ =
      put .expressionStart line (lexTag ws fuel false 0 ⟨'{' :: '{' :: before, rest, line⟩) := by
  have hadvance : (⟨before, '{' :: '{' :: rest, line⟩ : Cursor).advance 2 =
      ⟨'{' :: '{' :: before, rest, line⟩ := rfl
  rw [lexMarker]
  simp [hadvance]

/-- The token of a text between tags. -/
def putText (text : List Char) (line : Nat) (rest : Lexed) : Lexed :=
  if text.isEmpty then rest else put (.data (String.ofList text)) line rest

theorem marker?_of_ne {c : Char} (h : c ≠ '{') (text : List Char) : marker? (c :: text) = none := by
  unfold marker?
  split <;> simp_all

theorem findMarker_text {text : List Char} (h : '{' ∉ text) : findMarker text = (text, none) := by
  induction text with
  | nil => rfl
  | cons c text ih =>
      rw [List.mem_cons, not_or] at h
      rw [findMarker, marker?_of_ne (Ne.symm h.1), ih h.2]

theorem findMarker_expression {text : List Char} (h : '{' ∉ text) (rest : List Char) :
    findMarker (text ++ '{' :: '{' :: rest) = (text, some .expression) := by
  induction text with
  | nil => rfl
  | cons c text ih =>
      rw [List.mem_cons, not_or] at h
      rw [List.cons_append, findMarker, marker?_of_ne (Ne.symm h.1), ih h.2]

theorem lexText_end {text : List Char} (h : '{' ∉ text) (fuel : Nat) :
    lexText ws (fuel + 1) false ⟨before, text, line⟩ = putText text line {} := by
  rw [lexText]
  simp [findMarker_text h, putText]

theorem lexText_expression {text : List Char} (h : '{' ∉ text) (fuel : Nat) :
    lexText ws (fuel + 1) false ⟨before, text ++ '{' :: '{' :: ' ' :: rest, line⟩ =
      putText text line (lexMarker ws fuel .expression .default
        ⟨text.reverse ++ before, '{' :: '{' :: ' ' :: rest, line + Text.newlines text⟩) := by
  have hadvance : (⟨before, text ++ '{' :: '{' :: ' ' :: rest, line⟩ : Cursor).advance text.length =
      ⟨text.reverse ++ before, '{' :: '{' :: ' ' :: rest, line + Text.newlines text⟩ := by
    simp [Cursor.advance]
  have hcontrol : control (some ' ') = .default := rfl
  rw [lexText]
  simp [findMarker_expression h, hadvance, hcontrol, putText]

end Template.Lexer

end QueryTemplate
