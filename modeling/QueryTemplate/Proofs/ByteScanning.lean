import QueryTemplate.Proofs.BytePositions
import QueryTemplate.Proofs.NameHints

/-!
The scanners over bytes find what the scanners over characters find. A byte that is part of a longer
character is none of those that they look for, so they pass over it; an escape in a string literal
passes over the first byte of a character, and the others are passed over one by one.
-/

namespace QueryTemplate.BytePositions

open Ending Text Instrument

/-! ### The end of a tag -/

variable {pre post : List UInt8} {b : UInt8} {c x : Char} {depth : Nat} {front rest : List Char}

theorem among_high (hb : 128 ≤ b.toNat) {chars : List Char} (h : areBytes chars = true) :
    among b chars = false := by
  rw [among, List.any_eq_false]
  intro k hk heq
  exact toUInt8_ne_of_le hb (utf8Size_of_mem h k hk) (of_decide_eq_true heq)

theorem among_ascii (hx : x.utf8Size = 1) {chars : List Char} (h : areBytes chars = true) :
    among x.toUInt8 chars = decide (x ∈ chars) := by
  replace h := utf8Size_of_mem h
  induction chars with
  | nil => rfl
  | cons k chars ih =>
      rw [List.forall_mem_cons] at h
      rw [among, List.any_cons, ← among, ih h.2, decide_eq_decide.mpr (toUInt8_inj hx h.1),
        decide_eq_decide.mpr List.mem_cons, Bool.decide_or]

/-- A round at a byte that is part of a longer character only moves on. -/
theorem closeRound_high {quote : Option Char} (hb : 128 ≤ b.toNat) (hc : c.utf8Size = 1)
    (hquote : ∀ q ∈ quote, q.utf8Size = 1) :
    closeRound (pre ++ b :: post) (bytes [c, '}']) ⟨pre.length, depth, quote.map Char.toUInt8⟩ =
      returns (.inl ⟨pre.length + 1, depth, quote.map Char.toUInt8⟩) := by
  have hhere : pre.length < (pre ++ b :: post).length := by simp
  rw [closeRound, if_pos hhere]
  simp only [byteAt_append, returns_bind, bytesFrom_append]
  cases quote with
  | none =>
      have hclose : (bytes [c, '}']).isPrefixOf (b :: post) = false := by
        rw [bytes_ascii hc, List.isPrefixOf]
        simp [Ne.symm (toUInt8_ne_of_le hb hc)]
      have hquotes : among b ['\'', '"'] = false := among_high hb (by decide)
      have hopening : among b ['(', '[', '{'] = false := among_high hb (by decide)
      have hclosing : among b [')', ']', '}'] = false := among_high hb (by decide)
      simp [hquotes, hopening, hclosing, hclose]
  | some q =>
      have hescape : b ≠ '\\'.toUInt8 := toUInt8_ne_of_le hb (by decide)
      have hq : b ≠ q.toUInt8 := toUInt8_ne_of_le hb (hquote q rfl)
      simp [hescape, hq]

theorem loop_closeRound_high {high : List UInt8} (quote : Option Char)
    (hhigh : ∀ b ∈ high, 128 ≤ b.toNat) (hc : c.utf8Size = 1)
    (hquote : ∀ q ∈ quote, q.utf8Size = 1) (rounds : Nat) :
    loop (closeRound (pre ++ (high ++ post)) (bytes [c, '}'])) (rounds + high.length)
        ⟨pre.length, depth, quote.map Char.toUInt8⟩ =
      loop (closeRound (pre ++ (high ++ post)) (bytes [c, '}'])) rounds
        ⟨pre.length + high.length, depth, quote.map Char.toUInt8⟩ := by
  induction high generalizing pre with
  | nil => rfl
  | cons b high ih =>
      rw [List.forall_mem_cons] at hhigh
      have hstep := @ih (pre ++ [b]) hhigh.2
      have hassoc : pre ++ [b] ++ (high ++ post) = pre ++ b :: (high ++ post) := by simp
      have hlength : (pre ++ [b]).length = pre.length + 1 := by simp
      rw [hassoc, hlength] at hstep
      rw [List.length_cons, List.cons_append, ← Nat.add_assoc,
        loop_next (closeRound_high hhigh.1 hc hquote), hstep, Nat.add_assoc, Nat.add_comm 1]

theorem utf8Size_of_isQuote {q : Char} (h : isQuote q = true) : q.utf8Size = 1 := by
  simp only [isQuote, Bool.or_eq_true, decide_eq_true_eq] at h
  rcases h with rfl | rfl <;> rfl

theorem bytes_at (hx : x.utf8Size = 1) (front rest : List Char) :
    bytes (front ++ x :: rest) = bytes front ++ x.toUInt8 :: bytes rest := by
  rw [bytes_append, bytes_ascii hx]

/-- A round at a character outside string literals. -/
theorem closeRound_none (hx : x.utf8Size = 1) (hc : c = '%' ∨ c = '}') (depth : Nat)
    (front rest : List Char) :
    closeRound (bytes (front ++ x :: rest)) (bytes [c, '}']) ⟨byteLength front, depth, none⟩ =
      returns (if depth = 0 ∧ x = c ∧ rest.head? = some '}' then .inr (some (byteLength front + 2))
        else .inl ⟨byteLength front + 1, (afterChar depth x).1,
          (afterChar depth x).2.map Char.toUInt8⟩) := by
  have hascii : areBytes [c, '}'] = true := by
    rcases hc with rfl | rfl <;> rfl
  have hclose : (bytes [c, '}']).isPrefixOf (x.toUInt8 :: bytes rest) =
      decide (x = c ∧ rest.head? = some '}') := by
    rw [← bytes_ascii hx, isPrefixOf_bytes (utf8Size_of_mem hascii)]
    cases rest with
    | nil => simp [List.isPrefixOf]
    | cons y rest => simp [List.isPrefixOf, eq_comm, beq_eq_decide]
  have hsize : (bytes [c, '}']).length = 2 := by
    rw [length_bytes]
    rcases hc with rfl | rfl <;> rfl
  have hquotes : among x.toUInt8 ['\'', '"'] = isQuote x := by
    rw [among_ascii hx (by decide), isQuote]
    simp
  have hopening : among x.toUInt8 ['(', '[', '{'] = isOpening x := by
    rw [among_ascii hx (by decide), isOpening]
    simp [Bool.or_assoc]
  have hclosing : among x.toUInt8 [')', ']', '}'] = isClosing x := by
    rw [among_ascii hx (by decide), isClosing]
    simp [Bool.or_assoc]
  have hhere : (bytes front).length < (bytes front ++ x.toUInt8 :: bytes rest).length := by simp
  rw [bytes_at hx, ← length_bytes front, closeRound, if_pos hhere]
  simp only [byteAt_append, returns_bind, bytesFrom_append, hquotes, hopening, hclosing, hclose,
    hsize]
  rw [afterChar]
  -- The cases come in the order of the code: the end of the tag, then quotes, then brackets.
  by_cases hend : depth = 0 ∧ x = c ∧ rest.head? = some '}'
  · obtain ⟨rfl, rfl, hhead⟩ := hend
    have hplain : isQuote x = false ∧ isOpening x = false := by rcases hc with rfl | rfl <;> decide
    simp [hplain, hhead]
  · rw [if_neg hend]
    by_cases hquote : isQuote x = true
    · simp [hquote]
    by_cases hopen : isOpening x = true
    · simp [hquote, hopen]
    by_cases hclosed : isClosing x = true
    · cases depth with
      | zero =>
          have hgo : ¬(x = c ∧ rest.head? = some '}') := fun h => hend ⟨rfl, h⟩
          simp [hquote, hopen, hclosed, hgo]
      | succ depth => simp [hquote, hopen, hclosed]
    · cases depth with
      | zero =>
          have hgo : ¬(x = c ∧ rest.head? = some '}') := fun h => hend ⟨rfl, h⟩
          simp [hquote, hopen, hclosed, hgo]
      | succ depth => simp [hquote, hopen, hclosed]

/-- A round at a character in a string literal. -/
theorem closeRound_some {q : Char} (hx : x.utf8Size = 1) (hq : isQuote q = true) (close : List UInt8)
    (depth : Nat) (front rest : List Char) :
    closeRound (bytes (front ++ x :: rest)) close ⟨byteLength front, depth, some q.toUInt8⟩ =
      returns (.inl (if x = '\\' then ⟨byteLength front + 2, depth, some q.toUInt8⟩
        else ⟨byteLength front + 1, depth,
          (if x = q then none else some q : Option Char).map Char.toUInt8⟩)) := by
  have hhere : (bytes front).length < (bytes front ++ x.toUInt8 :: bytes rest).length := by simp
  rw [bytes_at hx, ← length_bytes front, closeRound, if_pos hhere]
  simp only [byteAt_append, returns_bind, toUInt8_inj hx (by decide : '\\'.utf8Size = 1),
    toUInt8_inj hx (utf8Size_of_isQuote hq)]
  split
  · rfl
  split <;> rfl

/-- A character of several bytes is passed over. -/
theorem loop_closeRound_wide (quote : Option Char) (hx : x.utf8Size ≠ 1) (hc : c.utf8Size = 1)
    (hquote : ∀ q ∈ quote, q.utf8Size = 1) (depth : Nat) (front rest : List Char) (rounds : Nat) :
    loop (closeRound (bytes (front ++ x :: rest)) (bytes [c, '}'])) (rounds + x.utf8Size)
        ⟨byteLength front, depth, quote.map Char.toUInt8⟩ =
      loop (closeRound (bytes (front ++ x :: rest)) (bytes [c, '}'])) rounds
        ⟨byteLength front + x.utf8Size, depth, quote.map Char.toUInt8⟩ := by
  rw [bytes_append, bytes_cons, ← length_bytes front, ← String.length_utf8EncodeChar x]
  exact loop_closeRound_high quote (fun b => le_of_mem_utf8EncodeChar hx) hc hquote rounds

/-- The brackets and the quote characters are in the ASCII range. -/
theorem afterChar_of_wide (hx : x.utf8Size ≠ 1) (depth : Nat) :
    afterChar depth x = (depth, none) := by
  have hne (k : Char) (hk : k.utf8Size = 1) : ¬x = k := fun heq => hx (heq ▸ hk)
  have hquote : isQuote x = false := by simp [isQuote, hne '\'' rfl, hne '"' rfl]
  have hopening : isOpening x = false := by
    simp [isOpening, hne '(' rfl, hne '[' rfl, hne '{' rfl]
  have hclosing : isClosing x = false := by
    simp [isClosing, hne ')' rfl, hne ']' rfl, hne '}' rfl]
  simp [afterChar, hquote, hopening, hclosing]

theorem isQuote_of_afterChar {q : Char} (h : q ∈ (afterChar depth x).2) : isQuote q = true := by
  rw [afterChar] at h
  split at h
  · cases h
    assumption
  split at h
  · cases h
  split at h <;> cases h

theorem byteLength_append_singleton (front : List Char) (x : Char) :
    byteLength (front ++ [x]) = byteLength front + x.utf8Size :=
  byteLength_append front [x]

variable {rounds : Nat} {q y : Char}

/-- The rounds at a character outside string literals. -/
theorem loop_closeRound_none (hc : c = '%' ∨ c = '}')
    (hend : ¬(depth = 0 ∧ x = c ∧ rest.head? = some '}')) :
    loop (closeRound (bytes (front ++ x :: rest)) (bytes [c, '}'])) (rounds + x.utf8Size)
        ⟨byteLength front, depth, none⟩ =
      loop (closeRound (bytes (front ++ x :: rest)) (bytes [c, '}'])) rounds
        ⟨byteLength (front ++ [x]), (afterChar depth x).1,
          (afterChar depth x).2.map Char.toUInt8⟩ := by
  rw [byteLength_append_singleton]
  by_cases hx : x.utf8Size = 1
  · rw [hx]
    exact loop_next (by rw [closeRound_none hx hc, if_neg hend])
  · have hascii : c.utf8Size = 1 := by rcases hc with rfl | rfl <;> rfl
    rw [afterChar_of_wide hx]
    exact loop_closeRound_wide none hx hascii (by simp) depth front rest rounds

/-- The rounds at a character in a string literal. -/
theorem loop_closeRound_some (hc : c.utf8Size = 1) (hq : isQuote q = true) (hescape : x ≠ '\\') :
    loop (closeRound (bytes (front ++ x :: rest)) (bytes [c, '}'])) (rounds + x.utf8Size)
        ⟨byteLength front, depth, some q.toUInt8⟩ =
      loop (closeRound (bytes (front ++ x :: rest)) (bytes [c, '}'])) rounds
        ⟨byteLength (front ++ [x]), depth,
          (if x = q then none else some q : Option Char).map Char.toUInt8⟩ := by
  rw [byteLength_append_singleton]
  have hquote := utf8Size_of_isQuote hq
  by_cases hx : x.utf8Size = 1
  · rw [hx]
    exact loop_next (by rw [closeRound_some hx hq, if_neg hescape])
  · have hne : x ≠ q := fun heq => hx (heq ▸ hquote)
    rw [if_neg hne]
    exact loop_closeRound_wide (some q) hx hc (by simpa using hquote) depth front rest
      rounds

/-- The rounds at an escape, which passes over the first byte of the next character, so that the
others are passed over one by one. -/
theorem loop_closeRound_escape (hc : c.utf8Size = 1) (hq : isQuote q = true) :
    loop (closeRound (bytes (front ++ '\\' :: y :: rest)) (bytes [c, '}'])) (rounds + y.utf8Size)
        ⟨byteLength front, depth, some q.toUInt8⟩ =
      loop (closeRound (bytes (front ++ '\\' :: y :: rest)) (bytes [c, '}'])) rounds
        ⟨byteLength (front ++ ['\\', y]), depth, some q.toUInt8⟩ := by
  obtain ⟨b, tail, hy, htail⟩ := exists_utf8EncodeChar y
  have hsize : y.utf8Size = tail.length + 1 := by
    rw [← String.length_utf8EncodeChar, hy, List.length_cons]
  have hbytes : bytes (front ++ '\\' :: y :: rest) =
      bytes front ++ ['\\'.toUInt8, b] ++ (tail ++ bytes rest) := by
    rw [bytes_at rfl, bytes_cons, hy]
    simp
  have hpre : (bytes front ++ ['\\'.toUInt8, b]).length = byteLength front + 2 := by
    rw [List.length_append, length_bytes]
    rfl
  have hescape : byteLength ['\\', y] = 1 + y.utf8Size := rfl
  have hend : byteLength (front ++ ['\\', y]) = byteLength front + 2 + tail.length := by
    rw [byteLength_append, hescape]
    omega
  rw [hsize, ← Nat.add_assoc, loop_next (closeRound_some rfl hq _ depth front (y :: rest)),
    if_pos rfl, hend, hbytes, ← hpre]
  exact loop_closeRound_high (some q) htail hc (by simpa using utf8Size_of_isQuote hq)
    rounds

/-- The end of a tag with more text in front. -/
theorem map_end (front run : List Char) (found : Option (List Char × List Char)) :
    (found.map fun (body, rest) => (run ++ body, rest)).map
        (fun (body, _) => byteLength front + byteLength body + 2) =
      found.map fun (body, _) => byteLength (front ++ run) + byteLength body + 2 := by
  rw [Option.map_map]
  congr 1
  funext found
  simp only [Function.comp_apply, byteLength_append]
  omega

theorem loop_closeRound_out {end_ : Nat} {quote : Option UInt8} {text : List Char}
    (hrounds : 0 < rounds) (hend : byteLength text ≤ end_) :
    loop (closeRound (bytes text) (bytes [c, '}'])) rounds ⟨end_, depth, quote⟩ = returns none := by
  obtain ⟨rounds, rfl⟩ := Nat.exists_eq_add_of_le' hrounds
  refine loop_last (if_neg ?_)
  rw [length_bytes]
  exact Nat.not_lt.mpr hend

/-- The end of a tag is where the scanner over characters finds it, if the search goes on behind
`front`. -/
def FindsClose (c : Char) (front rest : List Char) (depth : Nat) (quote : Option Char) : Prop :=
  ∀ ⦃rounds : Nat⦄, byteLength rest < rounds →
    loop (closeRound (bytes (front ++ rest)) (bytes [c, '}'])) rounds
        ⟨byteLength front, depth, quote.map Char.toUInt8⟩ =
      returns ((Instrument.closeOf c depth quote rest).map fun (body, _) =>
        byteLength front + byteLength body + 2)

/-! Its steps, one for each equation of the scanner over characters. -/

namespace FindsClose

theorem nil (quote : Option Char) : FindsClose c front [] depth quote := by
  intro rounds h
  have hclose : Instrument.closeOf c depth quote [] = none := by cases quote <;> rfl
  rw [hclose]
  exact loop_closeRound_out h (Nat.le_of_eq (by rw [List.append_nil]))

/-- Outside string literals. -/
theorem outside (hc : c = '%' ∨ c = '}')
    (h : FindsClose c (front ++ [x]) rest (afterChar depth x).1 (afterChar depth x).2) :
    FindsClose c front (x :: rest) depth none := by
  intro rounds hrounds
  rw [byteLength_cons] at hrounds
  rw [closeOf_none hc]
  by_cases hend : depth = 0 ∧ x = c ∧ rest.head? = some '}'
  · obtain ⟨rounds, rfl⟩ := Nat.exists_eq_add_of_le' (Nat.lt_of_le_of_lt (Nat.zero_le _) hrounds)
    have hascii : c.utf8Size = 1 := by rcases hc with rfl | rfl <;> rfl
    rw [if_pos hend]
    obtain ⟨rfl, rfl, hhead⟩ := hend
    refine loop_last ?_
    rw [Option.map_none, closeRound_none hascii hc, if_pos ⟨rfl, rfl, hhead⟩]
    rfl
  · obtain ⟨rounds, rfl⟩ : ∃ left, rounds = left + x.utf8Size :=
      Nat.exists_eq_add_of_le' (by omega)
    have hassoc : front ++ x :: rest = front ++ [x] ++ rest := by simp
    rw [if_neg hend, Option.map_none, loop_closeRound_none hc hend, hassoc, h (by omega),
      ← map_end front [x]]
    rfl

/-- In a string literal. -/
theorem quoted (hc : c.utf8Size = 1) (hq : isQuote q = true) (hescape : x ≠ '\\')
    (h : FindsClose c (front ++ [x]) rest depth (if x = q then none else some q)) :
    FindsClose c front (x :: rest) depth (some q) := by
  intro rounds hrounds
  rw [byteLength_cons] at hrounds
  obtain ⟨rounds, rfl⟩ : ∃ left, rounds = left + x.utf8Size :=
    Nat.exists_eq_add_of_le' (by omega)
  have hassoc : front ++ x :: rest = front ++ [x] ++ rest := by simp
  rw [closeOf_some, Option.map_some, if_neg hescape, loop_closeRound_some hc hq hescape, hassoc,
    h (by omega), ← map_end front [x]]
  rfl

/-- At an escape in a string literal. -/
theorem escaped (hc : c.utf8Size = 1) (hq : isQuote q = true)
    (h : FindsClose c (front ++ ['\\', y]) rest depth (some q)) :
    FindsClose c front ('\\' :: y :: rest) depth (some q) := by
  intro rounds hrounds
  rw [byteLength_cons, byteLength_cons] at hrounds
  obtain ⟨rounds, rfl⟩ : ∃ left, rounds = left + y.utf8Size :=
    Nat.exists_eq_add_of_le' (by omega)
  have hassoc : front ++ '\\' :: y :: rest = front ++ ['\\', y] ++ rest := by simp
  rw [closeOf_some, Option.map_some, if_pos rfl, loop_closeRound_escape hc hq, hassoc]
  refine (h (by omega)).trans ?_
  rw [← map_end front ['\\', y]]
  rfl

/-- At an escape that nothing follows. -/
theorem escape_end (hq : isQuote q = true) : FindsClose c front ['\\'] depth (some q) := by
  intro rounds hrounds
  have hsize : byteLength ['\\'] = 1 := rfl
  obtain ⟨rounds, rfl⟩ := Nat.exists_eq_add_of_le' (Nat.lt_of_le_of_lt (Nat.zero_le _) hrounds)
  have hlength : byteLength (front ++ ['\\']) ≤ byteLength front + 2 := by
    rw [byteLength_append_singleton]
    exact Nat.add_le_add_left (by decide) _
  rw [closeOf_some, Option.map_some, if_pos rfl,
    loop_next (closeRound_some rfl hq _ depth front []), if_pos rfl]
  exact loop_closeRound_out (by omega) hlength

end FindsClose

/-- The end of a tag is where the scanner over characters finds it. An escape takes two characters
at once, so the induction is on the length of the text. -/
theorem findsClose (hc : c = '%' ∨ c = '}') (front rest : List Char) (depth : Nat)
    {quote : Option Char} (hquote : ∀ q ∈ quote, isQuote q = true) :
    FindsClose c front rest depth quote := by
  have hascii : c.utf8Size = 1 := by rcases hc with rfl | rfl <;> rfl
  induction hlen : rest.length using Nat.strongRecOn generalizing depth quote front rest with
  | ind n ih =>
      subst hlen
      cases rest with
      | nil => exact .nil quote
      | cons x rest =>
          cases quote with
          | none =>
              exact .outside hc
                (ih _ (Nat.lt_succ_self _) _ _ _ (fun q => isQuote_of_afterChar) rfl)
          | some q =>
              have hq := hquote q rfl
              by_cases hescape : x = '\\'
              · subst hescape
                cases rest with
                | nil => exact .escape_end hq
                | cons y rest =>
                    have hlt : rest.length < ('\\' :: y :: rest).length :=
                      Nat.lt_succ_of_lt (Nat.lt_succ_self _)
                    exact .escaped hascii hq (ih _ hlt _ _ _ hquote rfl)
              · refine .quoted hascii hq hescape (ih _ (Nat.lt_succ_self _) _ _ _ ?_ rfl)
                intro d hd
                split at hd <;> cases hd
                exact hq

theorem closeOf_eq (hc : c = '%' ∨ c = '}') {d : Char} (hd : d.utf8Size = 1) {body : List Char}
    (h : byteLength body < rounds) :
    closeOf rounds ('{' :: d :: body) [c, '}'] =
      returns ((Instrument.closeOf c 0 none body).map fun (inner, _) =>
        byteLength ('{' :: d :: inner) + 2) := by
  have hfront : byteLength ['{', d] = 2 := by
    rw [byteLength_cons, byteLength_cons, hd]
    rfl
  have hfinds : FindsClose c ['{', d] body 0 none := findsClose hc _ _ _ (by simp)
  have hscan := hfinds h
  have hsplit (inner : List Char) : byteLength ('{' :: d :: inner) = 2 + byteLength inner := by
    rw [← hfront]
    exact byteLength_append ['{', d] inner
  rw [hfront] at hscan
  simp only [hsplit]
  exact hscan

/-! ### The beginning of a tag -/

open Template Lexer

theorem tagRound_out {bs : List UInt8} {pos : Nat} (h : bs.length ≤ pos + 1) :
    tagRound bs pos = returns (.inr none) :=
  if_neg (by omega)

/-- A byte that is not the first one of a tag's delimiter is passed over. -/
theorem loop_tagRound_byte (h : tagRound (pre ++ b :: post) pre.length =
      returns (.inl (pre.length + 1)) ∨ post = []) (rounds : Nat) :
    loop (tagRound (pre ++ b :: post)) (rounds + 2) pre.length =
      loop (tagRound (pre ++ b :: post)) (rounds + 1) (pre.length + 1) := by
  rcases h with h | rfl
  · exact loop_next h
  · have hlength : (pre ++ [b]).length = pre.length + 1 := by simp
    rw [loop_last (tagRound_out (by omega)), loop_last (tagRound_out (by omega))]

theorem tagRound_high (hb : 128 ≤ b.toNat) :
    tagRound (pre ++ b :: post) pre.length = returns (.inl (pre.length + 1)) ∨ post = [] := by
  cases post with
  | nil => exact .inr rfl
  | cons d post =>
      have hhere : pre.length + 1 < (pre ++ b :: d :: post).length := by simp
      have hne : b ≠ '{'.toUInt8 := toUInt8_ne_of_le hb rfl
      left
      rw [tagRound, if_pos hhere]
      simp [byteAt_append, hne]

theorem loop_tagRound_high {high : List UInt8} (hhigh : ∀ b ∈ high, 128 ≤ b.toNat) (rounds : Nat) :
    loop (tagRound (pre ++ (high ++ post))) (rounds + high.length + 1) pre.length =
      loop (tagRound (pre ++ (high ++ post))) (rounds + 1) (pre.length + high.length) := by
  induction high generalizing pre with
  | nil => rfl
  | cons b high ih =>
      rw [List.forall_mem_cons] at hhigh
      have hstep := @ih (pre ++ [b]) hhigh.2
      have hassoc : pre ++ [b] ++ (high ++ post) = pre ++ b :: (high ++ post) := by simp
      have hlength : (pre ++ [b]).length = pre.length + 1 := by simp
      rw [hassoc, hlength] at hstep
      rw [List.length_cons, List.cons_append, ← Nat.add_assoc]
      exact (loop_tagRound_byte (tagRound_high hhigh.1) (rounds + high.length)).trans
        (by rw [hstep, Nat.add_assoc, Nat.add_comm 1])

/-- The first byte of a character tells whether it is one of these. -/
theorem among_of_utf8EncodeChar {tail : List UInt8} (h : String.utf8EncodeChar x = b :: tail)
    {chars : List Char} (hchars : areBytes chars = true) :
    among b chars = decide (x ∈ chars) := by
  by_cases hx : x.utf8Size = 1
  · rw [String.utf8EncodeChar_eq_singleton hx] at h
    cases h
    exact among_ascii hx hchars
  · have hb := le_of_mem_utf8EncodeChar hx (h ▸ List.mem_cons_self)
    rw [among_high hb hchars, eq_comm, decide_eq_false_iff_not]
    exact fun hmem => hx (utf8Size_of_mem hchars x hmem)

/-- A round at a character and the one behind it. -/
theorem tagRound_eq (hx : x.utf8Size = 1) (front : List Char) (y : Char) (rest : List Char) :
    tagRound (bytes (front ++ x :: y :: rest)) (byteLength front) =
      returns (if x = '{' ∧ y ∈ ['{', '%', '#'] then .inr (some (byteLength front))
        else .inl (byteLength front + 1)) := by
  obtain ⟨b, tail, hy, -⟩ := exists_utf8EncodeChar y
  have hbytes : bytes (front ++ x :: y :: rest) =
      bytes front ++ x.toUInt8 :: b :: (tail ++ bytes rest) := by
    rw [bytes_at hx, bytes_cons, hy, List.cons_append]
  have hnext : byteAt (bytes front ++ x.toUInt8 :: b :: (tail ++ bytes rest))
      ((bytes front).length + 1) = returns b := by
    have hshape : bytes front ++ x.toUInt8 :: b :: (tail ++ bytes rest) =
        bytes front ++ [x.toUInt8] ++ b :: (tail ++ bytes rest) := by simp
    have hlength : (bytes front).length + 1 = (bytes front ++ [x.toUInt8]).length := by simp
    rw [hshape, hlength]
    exact byteAt_append _ _ _
  have hhere : (bytes front).length + 1 <
      (bytes front ++ x.toUInt8 :: b :: (tail ++ bytes rest)).length := by simp
  rw [hbytes, ← length_bytes front, tagRound, if_pos hhere]
  simp only [byteAt_append, returns_bind, toUInt8_inj hx (by decide : '{'.utf8Size = 1), hnext,
    among_of_utf8EncodeChar hy (by decide : areBytes ['{', '%', '#'] = true)]
  by_cases hopen : x = '{' <;> by_cases hkind : y ∈ ['{', '%', '#'] <;> simp [hopen, hkind]

theorem marker?_cons_cons (x y : Char) (rest : List Char) :
    marker? (x :: y :: rest) = none ↔ ¬(x = '{' ∧ y ∈ ['{', '%', '#']) := by
  unfold marker?
  split <;> simp_all

/-- The rounds at a character with which no tag begins. -/
theorem loop_tagRound_next (h : marker? (x :: rest) = none) (front : List Char) (rounds : Nat) :
    loop (tagRound (bytes (front ++ x :: rest))) (rounds + x.utf8Size + 1) (byteLength front) =
      loop (tagRound (bytes (front ++ x :: rest))) (rounds + 1) (byteLength (front ++ [x])) := by
  rw [byteLength_append_singleton]
  by_cases hx : x.utf8Size = 1
  · rw [hx, bytes_at hx, ← length_bytes front]
    refine loop_tagRound_byte ?_ rounds
    cases rest with
    | nil => exact .inr rfl
    | cons y rest =>
        left
        rw [← bytes_at hx, length_bytes, tagRound_eq hx,
          if_neg ((marker?_cons_cons x y rest).mp h)]
  · rw [bytes_append, bytes_cons, ← length_bytes front, ← String.length_utf8EncodeChar x]
    exact loop_tagRound_high (fun b => le_of_mem_utf8EncodeChar hx) rounds

/-- The next tag is where its marker is. -/
theorem tagStart_eq (front : List Char) (h : byteLength rest < rounds) :
    tagStart rounds (front ++ rest) (byteLength front) =
      returns ((findMarker rest).2.map fun _ => byteLength (front ++ (findMarker rest).1)) := by
  rw [tagStart]
  induction rest generalizing front rounds with
  | nil =>
      obtain ⟨rounds, rfl⟩ := Nat.exists_eq_add_of_le' h
      exact loop_last (tagRound_out (by rw [List.append_nil, length_bytes]; omega))
  | cons x rest ih =>
      rw [byteLength_cons] at h
      have hassoc : front ++ x :: rest = front ++ [x] ++ rest := by simp
      rw [findMarker]
      split
      · rename_i m hmarker
        obtain ⟨rounds, rfl⟩ := Nat.exists_eq_add_of_le' (Nat.lt_of_le_of_lt (Nat.zero_le _) h)
        cases rest with
        | nil =>
            unfold marker? at hmarker
            split at hmarker <;> simp_all
        | cons y rest =>
            have hopen : x = '{' ∧ y ∈ ['{', '%', '#'] := by
              by_contra hno
              rw [(marker?_cons_cons x y rest).mpr hno] at hmarker
              cases hmarker
            have hx : x.utf8Size = 1 := by rw [hopen.1]; rfl
            rw [loop_last (by rw [tagRound_eq hx, if_pos hopen]), List.append_nil]
            rfl
      · rename_i hmarker
        obtain ⟨rounds, rfl⟩ : ∃ left, rounds = left + x.utf8Size + 1 :=
          ⟨rounds - x.utf8Size - 1, by omega⟩
        rw [loop_tagRound_next hmarker, hassoc, ih (front ++ [x]) (by omega)]
        simp

/-! ### Names and expressions -/

theorem nameEnd_eq {pos : Nat} (hpos : 0 < pos) (text : List Char) :
    nameEnd pos pos text = pos + byteLength (text.takeWhile isNamePart) := by
  induction text generalizing pos with
  | nil => rfl
  | cons c text ih =>
      rw [nameEnd, if_neg (Nat.pos_iff_ne_zero.mp hpos), List.takeWhile_cons]
      split
      · rw [ih (Nat.lt_of_lt_of_le hpos (Nat.le_add_right _ _)), byteLength_cons, Nat.add_assoc]
      · rfl

theorem nameLength_eq (text : List Char) : nameLength text = byteLength (takeName text).1 := by
  cases text with
  | nil => rfl
  | cons c text =>
      rw [nameLength, nameEnd, if_pos rfl, takeName]
      split
      · rw [nameEnd_eq (by rw [Nat.zero_add]; exact c.utf8Size_pos), byteLength_cons, Nat.zero_add]
      · rfl

theorem byteLength_eq_zero {text : List Char} : byteLength text = 0 ↔ text = [] := by
  cases text with
  | nil => simp [byteLength]
  | cons c text =>
      have hpos := c.utf8Size_pos
      rw [byteLength_cons]
      constructor
      · intro h
        omega
      · intro h
        cases h

/-- The name that a text begins with, as a slice. -/
theorem slice_nameLength (text : List Char) :
    slice text 0 (nameLength text) = returns (takeName text).1 ∧
      sliceFrom text (nameLength text) = returns (takeName text).2 := by
  have htext := (takeName_eq text).1
  rw [nameLength_eq]
  constructor
  · have hsplit : text = [] ++ ((takeName text).1 ++ (takeName text).2) := htext.symm
    exact slice_of_eq_append hsplit rfl (Nat.zero_add _).symm
  · exact sliceFrom_of_eq_append htext.symm rfl

theorem innerOf_eq {d : Char} (hd : d.utf8Size = 1) (hc : c.utf8Size = 1) (inner : List Char) :
    innerOf ('{' :: d :: inner ++ [c, '}']) = returns inner := by
  have hfront : byteLength ['{', d] = 2 := by
    rw [byteLength_cons, byteLength_cons, hd]
    rfl
  have hback : byteLength [c, '}'] = 2 := by
    rw [byteLength_cons, hc]
    rfl
  have htag : '{' :: d :: inner ++ [c, '}'] = ['{', d] ++ (inner ++ [c, '}']) := rfl
  have hlength : byteLength ('{' :: d :: inner ++ [c, '}']) = 2 + byteLength inner + 2 := by
    rw [htag, byteLength_append, byteLength_append, hfront, hback, Nat.add_assoc]
  rw [innerOf, hlength, minus_add, returns_bind]
  exact slice_of_eq_append htag hfront.symm rfl

theorem tagName_eq (inner : List Char) :
    tagName ('{' :: '%' :: inner ++ ['%', '}']) = returns (Instrument.tagName inner) := by
  rw [tagName, innerOf_eq rfl rfl, returns_bind]
  exact (slice_nameLength _).1

theorem length_takeName (text : List Char) :
    (takeName text).1.length + (takeName text).2.length = text.length := by
  rw [← List.length_append, (takeName_eq text).1]

theorem chainRound_eq (chain : List (List Char)) (text : List Char) :
    chainRound (chain, text) =
      returns (if (takeName text).1 = [] then .inr none
        else if (takeName text).2.head? = some '.' then
          .inl (chain ++ [(takeName text).1], (takeName text).2.tail)
        else .inr (some (chain ++ [(takeName text).1], (takeName text).2))) := by
  obtain ⟨hname, hrest⟩ := slice_nameLength text
  have hsize : nameLength text = 0 ↔ (takeName text).1 = [] := by
    rw [nameLength_eq, byteLength_eq_zero]
  rw [chainRound]
  simp only [hsize, hname, hrest, returns_bind, pure_eq]
  split
  · rfl
  · cases (takeName text).2 with
    | nil => rfl
    | cons d rest =>
        by_cases hd : d = '.'
        · subst hd
          rfl
        · simp [hd]

/-- A chain of names is read as by the scanner over characters. -/
theorem loop_chainRound {fuel : Nat} {text : List Char} (hfuel : text.length < fuel)
    (h : text.length < rounds) (chain : List (List Char)) :
    loop chainRound rounds (chain, text) =
      returns ((takeChain fuel text).map fun (names, rest) => (chain ++ names, rest)) := by
  induction fuel generalizing rounds text chain with
  | zero => cases hfuel
  | succ fuel ih =>
      obtain ⟨rounds, rfl⟩ := Nat.exists_eq_add_of_le' (Nat.lt_of_le_of_lt (Nat.zero_le _) h)
      have hround := chainRound_eq chain text
      have hlength := length_takeName text
      rw [takeChain_succ]
      by_cases hnone : (takeName text).1 = []
      · rw [if_pos hnone] at hround ⊢
        exact loop_last hround
      rw [if_neg hnone] at hround ⊢
      by_cases hdot : (takeName text).2.head? = some '.'
      · rw [if_pos hdot] at hround ⊢
        have hafter : (takeName text).2.tail.length < text.length := by
          have hpos := List.length_pos_iff.mpr hnone
          rw [List.length_tail]
          omega
        rw [loop_next hround, ih (by omega) (by omega), Option.map_map]
        congr 2
        funext found
        simp
      · rw [if_neg hdot] at hround ⊢
        exact loop_last hround

theorem nameHint_eq {expr : List Char} (h : (trim expr).length < rounds) :
    nameHint rounds expr = returns (extractNameHint expr) := by
  rw [nameHint, loop_chainRound (Nat.lt_succ_self _) h]
  cases hchain : takeChain ((trim expr).length + 1) (trim expr) with
  | none =>
      rw [extractNameHint, hchain]
      rfl
  | some found =>
      obtain ⟨chain, rest⟩ := found
      have hhint := extractNameHint_of_takeChain hchain
      cases chain with
      | nil => exact absurd rfl (takeChain_eq_some hchain).1
      | cons head chain =>
          rw [List.headD_cons] at hhint
          rw [hhint]
          simp only [Option.map_some, List.nil_append, returns_bind, pure_eq]
          by_cases hword : expressionWords.contains (String.ofList head) ||
              isReservedName (String.ofList head)
          · rw [if_pos hword, if_pos hword]
          · rw [if_neg hword, if_neg hword]
            cases trimStart rest with
            | nil => rfl
            | cons c rest =>
                by_cases hc : c = '|'
                · subst hc
                  rfl
                · simp [hc]

/-- A control character at the front of a text is passed over. -/
theorem dropFirst_eq (text : List Char) :
    (text.head?.filter isControl).toList = (takeControl text).1 ∧
      dropFirst (text.head?.filter isControl) text = returns (takeControl text).2 := by
  cases text with
  | nil => exact ⟨rfl, rfl⟩
  | cons c text =>
      rw [takeControl, List.head?_cons]
      by_cases hc : isControl c = true
      · have hsize : byteLength [c] = 1 := by
          simp only [isControl, Bool.or_eq_true, beq_iff_eq] at hc
          rcases hc with rfl | rfl <;> rfl
        rw [Option.filter_some_pos hc, if_pos hc]
        have hsplit : c :: text = [c] ++ text := rfl
        exact ⟨rfl, sliceFrom_of_eq_append hsplit hsize.symm⟩
      · rw [Option.filter_some_neg (Bool.eq_false_iff.mpr hc), if_neg hc]
        exact ⟨rfl, rfl⟩

/-- A control character at the end of a text is left out. -/
theorem dropLast_eq (text : List Char) :
    (text.getLast?.filter isControl).toList = (takeControl text.reverse).1 ∧
      dropLast (text.getLast?.filter isControl) text =
        returns (takeControl text.reverse).2.reverse := by
  obtain ⟨reversed, rfl⟩ : ∃ reversed : List Char, text = reversed.reverse :=
    ⟨text.reverse, text.reverse_reverse.symm⟩
  rw [List.getLast?_reverse, List.reverse_reverse]
  cases reversed with
  | nil => exact ⟨rfl, rfl⟩
  | cons c reversed =>
      rw [takeControl, List.head?_cons]
      by_cases hc : isControl c = true
      · have hsize : byteLength (c :: reversed).reverse = byteLength reversed.reverse + 1 := by
          rw [List.reverse_cons, byteLength_append_singleton]
          simp only [isControl, Bool.or_eq_true, beq_iff_eq] at hc
          rcases hc with rfl | rfl <;> rfl
        have hsplit : (c :: reversed).reverse = [] ++ (reversed.reverse ++ [c]) := by simp
        rw [Option.filter_some_pos hc, if_pos hc]
        refine ⟨rfl, ?_⟩
        rw [dropLast, Option.isSome_some, if_pos rfl, hsize, minus_add, returns_bind]
        exact slice_of_eq_append hsplit rfl (Nat.zero_add _).symm
      · rw [Option.filter_some_neg (Bool.eq_false_iff.mpr hc), if_neg hc]
        exact ⟨rfl, rfl⟩

theorem length_trim_le (text : List Char) : (trim text).length ≤ text.length := by
  obtain ⟨front, back, htext, -, -⟩ := exists_trim text
  have hlength := congrArg List.length htext
  rw [List.length_append, List.length_append] at hlength
  omega

theorem length_expressionOf_le (inner : List Char) :
    (expressionOf inner).length ≤ inner.length := by
  obtain ⟨front, back, hinner, -, -⟩ := exists_expressionOf inner
  have hlength := congrArg List.length hinner
  simp only [List.length_append] at hlength
  omega

theorem rewriteExpression_eq {inner : List Char} (h : inner.length < rounds) (out : List Char) :
    rewriteExpression rounds ('{' :: '{' :: inner ++ ['}', '}']) out =
      returns ((expressionTag inner).map (out ++ ·)) := by
  have hshort : (trim (expressionOf inner)).length < rounds :=
    Nat.lt_of_le_of_lt (Nat.le_trans (length_trim_le _) (length_expressionOf_le _)) h
  obtain ⟨hopening, hfront⟩ := dropFirst_eq inner
  obtain ⟨hclosing, hback⟩ := dropLast_eq (takeControl inner).2
  have hopen : " (".toList = [' ', '('] := rfl
  have hclose : ") ".toList = [')', ' '] := rfl
  rw [rewriteExpression, innerOf_eq rfl rfl, returns_bind]
  simp only [hopening, hfront, returns_bind, hclosing, hback]
  rw [← expressionOf, expressionTag_eq]
  split
  · rfl
  · rw [nameHint_eq hshort]
    simp only [returns_bind, Option.map_some, emissionTag, emissionOf, hintArgument, openingOf,
      closingOf, hopen, hclose, pure_eq]
    cases extractNameHint (expressionOf inner) <;> simp

/-! ### Raw sections -/

/-- The end of a raw section with more text in front. -/
def behind (run : List Char) : RawEnd → RawEnd
  | .found body rest => .found (run ++ body) rest
  | .missing => .missing
  | .overlapping => .overlapping

theorem behind_behind (run more : List Char) (found : RawEnd) :
    behind run (behind more found) = behind (run ++ more) found := by
  cases found <;> simp [behind]

theorem endOfRaw_of_pass (h : rawStep (x :: rest) = .pass) :
    endOfRaw (x :: rest) = behind [x] (endOfRaw rest) := by
  rw [endOfRaw, h]
  cases endOfRaw rest <;> rfl

/-- A raw section does not end where no tag begins. -/
theorem endOfRaw_of_splitAtFirst (text : List Char) :
    endOfRaw text =
      match splitAtFirst ['{', '%'] text with
      | none => .missing
      | some (lead, after) => behind lead (endOfRaw ('{' :: '%' :: after)) := by
  induction text with
  | nil => rfl
  | cons x text ih =>
      rw [splitAtFirst]
      cases hhere : dropHead? ['{', '%'] (x :: text) with
      | some after =>
          rw [dropHead?_eq_some_iff] at hhere
          rw [hhere]
          cases h : endOfRaw ('{' :: '%' :: after) <;> simp [behind, h]
      | none =>
          have hpass : rawStep (x :: text) = .pass := rawStep_of_ne fun body heq => by
            rw [heq] at hhere
            cases hhere
          rw [endOfRaw_of_pass hpass, ih]
          cases splitAtFirst ['{', '%'] text with
          | none => rfl
          | some found => exact behind_behind [x] found.1 _

/-- The end of a raw section as a position. -/
def endingOf (front : List Char) : RawEnd → Ending (Option Nat)
  | .found body _ => returns (some (byteLength (front ++ body)))
  | .missing => returns none
  | .overlapping => panics

theorem endingOf_behind (front run : List Char) (found : RawEnd) :
    endingOf front (behind run found) = endingOf (front ++ run) found := by
  cases found <;> simp [behind, endingOf]

theorem splitAtFirst_tag (after : List Char) :
    splitAtFirst ['%', '}'] ('{' :: '%' :: after) =
      if after.head? = some '}' then some (['{'], after.tail)
      else (splitAtFirst ['%', '}'] after).map
        fun (inner, rest) => ('{' :: '%' :: inner, rest) := by
  have hfirst : dropHead? ['%', '}'] ('{' :: '%' :: after) = none :=
    dropHead?_cons_of_ne (by decide) _ _
  rw [splitAtFirst, hfirst, splitAtFirst]
  cases after with
  | nil => rfl
  | cons x after =>
      by_cases hx : x = '}'
      · subst hx
        rfl
      · have hnone : dropHead? ['%', '}'] ('%' :: x :: after) = none := by
          simp [dropHead?, Ne.symm hx]
        rw [hnone, if_neg (by simpa using hx), Option.map_map]
        rfl

/-- What is found at a tag of a raw section is what the scanner over characters does there. Where
the delimiters overlap, the end of the text between them is in front of its beginning. -/
theorem rawTag_eq (front after : List Char) :
    rawTag (front ++ '{' :: '%' :: after) (byteLength front) =
      match rawStep ('{' :: '%' :: after) with
      | .ends tag _ => returns (.inr (some (byteLength (front ++ tag))))
      | .pass => returns (.inl (byteLength (front ++ ['{', '%'])))
      | .missing => returns (.inr none)
      | .overlapping => panics := by
  have hslice : sliceFrom (front ++ '{' :: '%' :: after) (byteLength front) =
      returns ('{' :: '%' :: after) := sliceFrom_of_eq_append rfl rfl
  have hsplit := splitAtFirst_tag after
  have hopen : byteLength (front ++ ['{', '%']) = byteLength front + 2 := byteLength_append _ _
  rw [rawTag, hslice, returns_bind, rawStep_tag]
  by_cases hhead : after.head? = some '}'
  · -- The end is found one byte behind the beginning, so the text between them is no slice.
    rw [if_pos hhead] at hsplit ⊢
    rw [find_of_eq_some hsplit]
    have hsize : byteLength ['{'] = 1 := rfl
    have hend : minus (byteLength front + byteLength ['{'] + 2) 2 = returns (byteLength front + 1) :=
      minus_add _ 2
    simp only [hend, returns_bind, slice_of_lt (Nat.lt_succ_self (byteLength front + 1)),
      panics_bind]
  · rw [if_neg hhead] at hsplit ⊢
    cases hinner : splitAtFirst ['%', '}'] after with
    | none =>
        rw [hinner] at hsplit
        rw [find_of_eq_none hsplit]
        rfl
    | some found =>
        obtain ⟨inner, rest⟩ := found
        rw [hinner] at hsplit
        obtain ⟨rfl, -⟩ := splitAtFirst_eq_some (by simp) hinner
        have htag : byteLength ('{' :: '%' :: inner) = 2 + byteLength inner :=
          byteLength_append ['{', '%'] inner
        have hend : byteLength (front ++ ('{' :: '%' :: inner ++ ['%', '}'])) =
            byteLength front + byteLength ('{' :: '%' :: inner) + 2 := by
          rw [byteLength_append, byteLength_append, Nat.add_assoc]
          rfl
        have hsource : front ++ '{' :: '%' :: (inner ++ ['%', '}'] ++ rest) =
            front ++ ['{', '%'] ++ (inner ++ (['%', '}'] ++ rest)) := by simp
        have hpart : slice (front ++ '{' :: '%' :: (inner ++ ['%', '}'] ++ rest))
            (byteLength front + 2) (byteLength front + byteLength ('{' :: '%' :: inner)) =
              returns inner := by
          refine slice_of_eq_append hsource hopen.symm ?_
          rw [htag, Nat.add_assoc]
        rw [find_of_eq_some hsplit]
        simp only [minus_add, returns_bind, hpart, pure_eq]
        by_cases hword : tagWord inner = "endraw".toList
        · rw [if_pos hword, if_pos hword, ← hend]
        · rw [if_neg hword, if_neg hword, hopen]

theorem loop_rawRound (front : List Char) (h : rest.length < rounds) :
    loop (rawRound (front ++ rest)) rounds (byteLength front) = endingOf front (endOfRaw rest) := by
  induction hlen : rest.length using Nat.strongRecOn generalizing front rest rounds with
  | ind n ih =>
      subst hlen
      obtain ⟨rounds, rfl⟩ := Nat.exists_eq_add_of_le' (Nat.lt_of_le_of_lt (Nat.zero_le _) h)
      have hslice : sliceFrom (front ++ rest) (byteLength front) = returns rest :=
        sliceFrom_of_eq_append rfl rfl
      rw [endOfRaw_of_splitAtFirst]
      cases hlead : splitAtFirst ['{', '%'] rest with
      | none =>
          refine loop_last ?_
          rw [rawRound, hslice, returns_bind, find_of_eq_none hlead]
          rfl
      | some found =>
          obtain ⟨lead, after⟩ := found
          obtain ⟨hrest, -⟩ := splitAtFirst_eq_some (by simp) hlead
          have hsource : front ++ rest = (front ++ lead) ++ '{' :: '%' :: after := by
            rw [hrest]
            simp
          have hround : rawRound (front ++ rest) (byteLength front) =
              rawTag ((front ++ lead) ++ '{' :: '%' :: after) (byteLength (front ++ lead)) := by
            rw [rawRound, hslice, returns_bind, find_of_eq_some hlead, hsource, byteLength_append]
          rw [rawTag_eq] at hround
          simp only [endingOf_behind]
          -- A round of the scanner over bytes comes to the next tag, and does what the step says.
          cases hstep : rawStep ('{' :: '%' :: after) with
          | ends tag more =>
              rw [hstep] at hround
              rw [loop_last hround, endOfRaw, hstep]
              rfl
          | missing =>
              rw [hstep] at hround
              rw [loop_last hround, endOfRaw, hstep]
              rfl
          | overlapping =>
              rw [hstep] at hround
              rw [loop_panics hround, endOfRaw, hstep]
              rfl
          | pass =>
              rw [hstep] at hround
              -- No tag begins at the second sign of the delimiter, so both scanners go on behind it.
              have hnext : rawStep ('%' :: after) = .pass :=
                rawStep_of_ne fun body heq => absurd (List.cons.inj heq).1 (by decide)
              have hshorter : after.length < rest.length := by
                rw [hrest]
                simp
                omega
              have hagain : (front ++ lead) ++ '{' :: '%' :: after =
                  (front ++ lead ++ ['{', '%']) ++ after := by simp
              rw [loop_next hround, hsource, hagain, ih _ hshorter _ (by omega) rfl,
                endOfRaw_of_pass hstep, endOfRaw_of_pass hnext, endingOf_behind, endingOf_behind]
              simp

end QueryTemplate.BytePositions
