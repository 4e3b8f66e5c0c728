import QueryTemplate.Proofs.Lexing

/-!
The tokens of an instrumented template without control flow: one token for each run of text between
two tags, however many pieces it is made of, and those of the tags, all of them on the line the tag
is on.
-/

namespace QueryTemplate

open Template Template.Lexer

namespace TagKind

/-- The tokens of what follows the variable in a tag. -/
def suffixTokens (kind : TagKind) : List Token :=
  match kind.filter? with
  | none => []
  | some filter => [.symbol "|", .name filter]

/-- The tokens behind the expression of an instrumented tag. -/
def emissionTokens (name : String) : List Token :=
  [.symbol ")", .symbol "|", .name emitName, .symbol "(", .name scopeName, .symbol ",",
    .string name, .symbol ")", .expressionEnd]

/-- The tokens of an instrumented tag behind its first one. -/
def tokens (kind : TagKind) (name : String) : List Token :=
  [.symbol "(", .name name] ++ kind.suffixTokens ++ emissionTokens name

end TagKind

namespace TagKind

theorem beginsOutside_suffix (kind : TagKind) {rest : List Char}
    (h : Text.BeginsOutside Text.isNamePart rest) :
    Text.BeginsOutside Text.isNamePart (kind.suffix ++ rest) := by
  cases kind with
  | plain => exact h
  | identifier => exact Text.beginsOutside_cons rfl _
  | inclause => exact Text.beginsOutside_cons rfl _

end TagKind

/-- Tokens that all stand on one line. -/
def onLine (line : Nat) (tokens : List Token) : List Lexeme :=
  tokens.map fun token => ⟨token, line⟩

namespace Template.Lexer

/-- Tokens on one line in front of others. -/
def putAll (tokens : List Token) (line : Nat) (rest : Lexed) : Lexed :=
  tokens.foldr (fun token rest => put token line rest) rest

theorem putAll_append (tokens more : List Token) (line : Nat) (rest : Lexed) :
    putAll (tokens ++ more) line rest = putAll tokens line (putAll more line rest) :=
  List.foldr_append

theorem lexTag_suffix (ws : Whitespace) (kind : TagKind) {rest : List Char}
    (hrest : Text.BeginsOutside Text.isNamePart rest) (before : List Char) (line fuel : Nat) :
    ∃ before' more, lexTag ws (fuel + 4) false 1 ⟨before, kind.suffix ++ rest, line⟩ =
      putAll kind.suffixTokens line (lexTag ws (fuel + more) false 1 ⟨before', rest, line⟩) := by
  have hfilter (filter : List Char) (h : Text.isIdentifier filter = true) :
      lexTag ws (fuel + 4) false 1 ⟨before, ' ' :: '|' :: ' ' :: (filter ++ rest), line⟩ =
        putAll [.symbol "|", .name (String.ofList filter)] line
          (lexTag ws fuel false 1 ⟨filter.reverse ++ ' ' :: '|' :: ' ' :: before, rest, line⟩) := by
    rw [lexTag_space (Text.beginsOutside_cons rfl _), lexTag_symbol rfl rfl rfl,
      lexTag_space (Text.beginsOutside_isAsciiSpace h _), lexTag_name h hrest]
    rfl
  cases kind with
  | plain => exact ⟨before, 4, rfl⟩
  | identifier => exact ⟨_, 0, hfilter "identifier".toList (by decide)⟩
  | inclause => exact ⟨_, 0, hfilter "inclause".toList (by decide)⟩

/-- What is written behind an expression to call the emit filter, with its second argument. -/
def emitCall (argument rest : List Char) : List Char :=
  ')' :: ' ' :: '|' :: ' ' :: (emitName.toList ++ '(' :: (scopeName.toList ++ ',' :: ' ' ::
    (argument ++ ')' :: rest)))

/-- The tokens of a call of the emit filter. -/
def emitTokens (argument : Token) : List Token :=
  [.symbol ")", .symbol "|", .name emitName, .symbol "(", .name scopeName, .symbol ",", argument,
    .symbol ")"]

/-- A text that is a single token inside a tag, whatever stands in a call behind it. -/
def ReadsArgument (ws : Whitespace) (argument : List Char) (token : Token) : Prop :=
  ∀ fuel depth before rest line,
    Text.BeginsOutside Text.isAsciiSpace (argument ++ ')' :: rest) ∧
      lexTag ws (fuel + 1) false depth ⟨before, argument ++ ')' :: rest, line⟩ =
        put token line (lexTag ws fuel false depth ⟨argument.reverse ++ before, ')' :: rest, line⟩)

theorem readsArgument_string (ws : Whitespace) {text : List Char} (hquote : '"' ∉ text)
    (hescape : '\\' ∉ text) (hline : Text.newlines text = 0) :
    ReadsArgument ws ('"' :: text ++ ['"']) (.string (String.ofList text)) := by
  intro fuel depth before rest line
  simp only [List.cons_append, List.append_assoc, List.nil_append, List.reverse_cons,
    List.reverse_append, List.reverse_nil]
  exact ⟨Text.beginsOutside_cons rfl _, lexTag_string hquote hescape hline fuel⟩

theorem readsArgument_name (ws : Whitespace) {name : List Char}
    (hname : Text.isIdentifier name = true) :
    ReadsArgument ws name (.name (String.ofList name)) := fun fuel _ _ _ _ =>
  ⟨Text.beginsOutside_isAsciiSpace hname _,
    lexTag_name hname (Text.beginsOutside_cons rfl _) fuel⟩

/-- The call of the emit filter behind an expression, from the parenthesis on that closes it. -/
theorem lexTag_emitCall {ws : Whitespace} {argument : List Char} {token : Token}
    (hargument : ReadsArgument ws argument token) (before rest : List Char) (line fuel : Nat) :
    ∃ before', lexTag ws (fuel + 11) false 1 ⟨before, emitCall argument rest, line⟩ =
      putAll (emitTokens token) line (lexTag ws fuel false 0 ⟨before', rest, line⟩) := by
  have hemit : Text.isIdentifier emitName.toList = true := by decide
  have hscope : Text.isIdentifier scopeName.toList = true := by decide
  have hdepth : (1 : Int) + balance ")" + balance "|" + balance "(" + balance "," +
      balance ")" = 0 := rfl
  refine ⟨')' :: (argument.reverse ++ ' ' :: ',' :: (scopeName.toList.reverse ++
    '(' :: (emitName.toList.reverse ++ ' ' :: '|' :: ' ' :: ')' :: before))), ?_⟩
  rw [emitCall, lexTag_symbol rfl rfl rfl, lexTag_space (Text.beginsOutside_cons rfl _),
    lexTag_symbol rfl rfl rfl, lexTag_space (Text.beginsOutside_isAsciiSpace hemit _),
    lexTag_name hemit (Text.beginsOutside_cons rfl _), lexTag_symbol rfl rfl rfl,
    lexTag_name hscope (Text.beginsOutside_cons rfl _), lexTag_symbol rfl rfl rfl,
    lexTag_space (hargument 0 0 before rest line).1, (hargument _ _ _ rest line).2,
    lexTag_symbol rfl rfl rfl, hdepth]
  simp only [String.ofList_toList]
  rfl

end Template.Lexer

namespace Fragment

/-- What stands behind the expression of an instrumented tag. -/
def emission (name : String) (rest : List Char) : List Char :=
  ')' :: ' ' :: '|' :: ' ' :: (emitName.toList ++ '(' :: (scopeName.toList ++ ',' :: ' ' ::
    '"' :: (name.toList ++ '"' :: ')' :: ' ' :: '}' :: '}' :: rest)))

theorem instrumented_append (kind : TagKind) (name : String) (rest : List Char) :
    (tag kind name).instrumented ++ rest =
      '{' :: '{' :: ' ' :: '(' :: (name.toList ++ (kind.suffix ++ emission name rest)) := by
  have hopen : " (".toList = [' ', '('] := rfl
  have hbar : ") | ".toList = [')', ' ', '|', ' '] := rfl
  have hcomma : ", ".toList = [',', ' '] := rfl
  have hclose : ") ".toList = [')', ' '] := rfl
  simp only [instrumented, TagKind.expr, emission, hopen, hbar, hcomma, hclose, List.append_assoc,
    List.cons_append, List.nil_append]

variable {kind : TagKind} {name : String}

theorem lexTag_emission (ws : Whitespace) (hname : Text.isIdentifier name.toList = true)
    (before rest : List Char) (line fuel : Nat) :
    ∃ before', lexTag ws (fuel + 13) false 1 ⟨before, emission name rest, line⟩ =
      putAll (TagKind.emissionTokens name) line (lexText ws fuel false ⟨before', rest, line⟩) := by
  have hquote : '"' ∉ name.toList := fun hmem =>
    absurd (Text.isNamePart_of_mem hname hmem) (by decide)
  have hescape : '\\' ∉ name.toList := fun hmem =>
    absurd (Text.isNamePart_of_mem hname hmem) (by decide)
  have hline : Text.newlines name.toList = 0 := List.count_eq_zero.mpr fun hmem =>
    absurd (Text.isNamePart_of_mem hname hmem) (by decide)
  have hshape : emission name rest =
      emitCall ('"' :: name.toList ++ ['"']) (' ' :: '}' :: '}' :: rest) := by
    simp [emission, emitCall]
  obtain ⟨before', hcall⟩ := lexTag_emitCall (readsArgument_string ws hquote hescape hline) before
    (' ' :: '}' :: '}' :: rest) line (fuel + 2)
  rw [String.ofList_toList] at hcall
  refine ⟨'}' :: '}' :: ' ' :: before', ?_⟩
  rw [hshape, hcall, lexTag_space (Text.beginsOutside_cons rfl _), lexTag_end]
  rfl

/-- The tokens of a tag, all of them on its line. -/
theorem lexMarker_instrumented (ws : Whitespace) (h : (tag kind name).WellFormed)
    (before rest : List Char) (line fuel : Nat) :
    ∃ before' more, lexMarker ws (fuel + 21) .expression .default
        ⟨before, (tag kind name).instrumented ++ rest, line⟩ =
      putAll (.expressionStart :: kind.tokens name) line
        (lexText ws (fuel + more) false ⟨before', rest, line⟩) := by
  obtain ⟨hname, -, -⟩ := h
  have hdepth : (0 : Int) + balance "(" = 1 := rfl
  have hfuel : fuel + 21 = fuel + 13 + 4 + 4 := rfl
  have hrest : Text.BeginsOutside Text.isNamePart (emission name rest) :=
    Text.beginsOutside_cons rfl _
  obtain ⟨before₁, more, hsuffix⟩ := lexTag_suffix ws kind hrest
    (name.toList.reverse ++ '(' :: ' ' :: '{' :: '{' :: before) line (fuel + 13)
  obtain ⟨before₂, hemission⟩ := lexTag_emission ws hname before₁ rest line (fuel + more)
  refine ⟨before₂, more, ?_⟩
  rw [instrumented_append, hfuel, lexMarker_expression, lexTag_space (Text.beginsOutside_cons rfl _),
    lexTag_symbol rfl rfl rfl, lexTag_name hname (kind.beginsOutside_suffix hrest), hdepth, hsuffix,
    Nat.add_right_comm fuel 13 more, hemission, String.ofList_toList, ← putAll_append]
  rfl

/-- The token of a run of text. -/
def runLexemes (text : List Char) (line : Nat) : List Lexeme :=
  if text.isEmpty then [] else [⟨.data (String.ofList text), line⟩]

/-- The tokens of a template with more text in front of it. -/
def lexemes (line : Nat) (text : List Char) : List Fragment → List Lexeme
  | [] => runLexemes text line
  | .text run :: rest => lexemes line (text ++ run.toList) rest
  | .tag kind name :: rest =>
    let tagLine := line + Text.newlines text
    runLexemes text line ++ onLine tagLine (.expressionStart :: kind.tokens name) ++
      lexemes tagLine [] rest

def isTag : Fragment → Bool
  | .text _ => false
  | .tag _ _ => true

theorem putText_eq (text : List Char) (line : Nat) (rest : Lexed) :
    putText text line rest = { rest with lexemes := runLexemes text line ++ rest.lexemes } := by
  rw [putText, runLexemes]
  split <;> rfl

theorem putAll_eq (tokens : List Token) (line : Nat) (rest : Lexed) :
    putAll tokens line rest =
      { rest with lexemes := onLine line tokens ++ rest.lexemes } := by
  induction tokens with
  | nil => rfl
  | cons token tokens ih =>
      rw [putAll, List.foldr_cons, ← putAll, ih]
      rfl

theorem lexText_instrumented (ws : Whitespace) {fragments : List Fragment}
    (h : ∀ f ∈ fragments, f.WellFormed) {text : List Char} (htext : '{' ∉ text) {fuel : Nat}
    (hfuel : 22 * fragments.countP isTag + 1 ≤ fuel) (before : List Char) (line : Nat) :
    lexText ws fuel false ⟨before, text ++ fragments.flatMap instrumented, line⟩ =
      { lexemes := lexemes line text fragments } := by
  induction fragments generalizing text fuel before line with
  | nil =>
      obtain ⟨fuel, rfl⟩ := Nat.exists_eq_add_of_le' hfuel
      rw [List.flatMap_nil, List.append_nil, List.countP_nil, lexText_end htext, putText_eq,
        List.append_nil]
      rfl
  | cons fragment rest ih =>
      have hrest : ∀ f ∈ rest, f.WellFormed := fun f hf => h f (List.mem_cons_of_mem fragment hf)
      rw [List.flatMap_cons]
      cases fragment with
      | text run =>
          have hrun := (h _ List.mem_cons_self).1
          rw [List.countP_cons_of_neg Bool.false_ne_true] at hfuel
          rw [instrumented, ← List.append_assoc, ih hrest (by simp [htext, hrun]) hfuel]
          rfl
      | tag kind name =>
          rw [List.countP_cons_of_pos rfl] at hfuel
          -- Reading a tag takes at most 22 steps.
          obtain ⟨fuel, rfl⟩ : ∃ n, fuel = n + 21 + 1 := ⟨fuel - 22, by omega⟩
          obtain ⟨before', more, hmarker⟩ := lexMarker_instrumented ws (h _ List.mem_cons_self)
            (text.reverse ++ before) (rest.flatMap instrumented) (line + Text.newlines text) fuel
          have hih := ih hrest List.not_mem_nil
            (show 22 * rest.countP isTag + 1 ≤ fuel + more by omega) before'
            (line + Text.newlines text)
          rw [instrumented_append] at hmarker ⊢
          rw [lexText_expression htext, hmarker, ← List.nil_append (rest.flatMap instrumented), hih,
            putAll_eq, putText_eq, lexemes]
          simp only [List.append_assoc]

theorem length_instrumented (fragments : List Fragment) :
    22 * fragments.countP isTag ≤ (fragments.flatMap instrumented).length := by
  induction fragments with
  | nil => exact Nat.zero_le _
  | cons fragment rest ih =>
      rw [List.flatMap_cons, List.length_append]
      cases fragment with
      | text run =>
          rw [List.countP_cons_of_neg Bool.false_ne_true]
          omega
      | tag kind name =>
          have hemit : emitName.toList.length = 17 := by decide
          have hscope : scopeName.toList.length = 18 := by decide
          rw [List.countP_cons_of_pos rfl]
          simp only [instrumented, List.length_append, List.length_cons, hemit, hscope]
          omega

/-- The tokens of an instrumented template. -/
theorem lex_instrumented {ws : Whitespace} (hws : ws.keepTrailingNewline = true)
    {fragments : List Fragment} (h : ∀ f ∈ fragments, f.WellFormed) :
    lex ws (fragments.flatMap instrumented) = { lexemes := lexemes 1 [] fragments } := by
  have hlength := length_instrumented fragments
  rw [lex, hws, if_pos rfl]
  exact lexText_instrumented ws h List.not_mem_nil (by omega) [] 1

end Fragment

end QueryTemplate
