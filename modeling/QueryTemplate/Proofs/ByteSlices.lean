import QueryTemplate.Proofs.MarkerGrammar

/-!
Slices of a text by byte positions. A position is good if a character begins there or the text ends
there, so a program that takes a slice at any other position does not come to a result. A loop comes
to one only if it ends, which is seen from the number of rounds that it is given.
-/

namespace QueryTemplate

/-- How a program with slices and loops ends. -/
inductive Ending (α : Type) where
  | returns (a : α)
  /-- A slice, or an index, is out of range, or a slice cuts a character. -/
  | panics
  /-- A loop has not ended within its rounds. -/
  | runsOn
  deriving DecidableEq, Repr

namespace Ending

variable {α β σ : Type}

def bind (ending : Ending α) (next : α → Ending β) : Ending β :=
  match ending with
  | returns a => next a
  | panics => panics
  | runsOn => runsOn

instance : Monad Ending where
  pure := returns
  bind := bind

@[simp] theorem pure_eq (a : α) : (pure a : Ending α) = returns a := rfl

@[simp] theorem returns_bind (a : α) (next : α → Ending β) : returns a >>= next = next a := rfl

@[simp] theorem panics_bind (next : α → Ending β) : panics >>= next = panics := rfl

/-- A loop. A round goes on with another state or ends the loop. -/
def loop (round : σ → Ending (σ ⊕ α)) : (rounds : Nat) → σ → Ending α
  | 0, _ => runsOn
  | rounds + 1, state => do
    match ← round state with
    | .inl state => loop round rounds state
    | .inr a => return a

variable {round : σ → Ending (σ ⊕ α)} {rounds : Nat} {state : σ}

theorem loop_next {state' : σ} (h : round state = returns (.inl state')) :
    loop round (rounds + 1) state = loop round rounds state' := by
  rw [loop, h]
  rfl

theorem loop_last {a : α} (h : round state = returns (.inr a)) :
    loop round (rounds + 1) state = returns a := by
  rw [loop, h]
  rfl

theorem loop_panics (h : round state = panics) : loop round (rounds + 1) state = panics := by
  rw [loop, h]
  rfl

/-- Subtraction. -/
def minus (a b : Nat) : Ending Nat :=
  if b ≤ a then returns (a - b) else panics

theorem minus_add (a b : Nat) : minus (a + b) b = returns a := by
  rw [minus, if_pos (Nat.le_add_left _ _), Nat.add_sub_cancel]

end Ending

namespace Text

open Ending

/-- The bytes of a text in UTF-8. -/
def bytes (text : List Char) : List UInt8 :=
  text.flatMap String.utf8EncodeChar

/-- The byte at a position. -/
def byteAt (bytes : List UInt8) (pos : Nat) : Ending UInt8 :=
  match bytes[pos]? with
  | some b => returns b
  | none => panics

/-- The bytes from a position on. -/
def bytesFrom (bytes : List UInt8) (pos : Nat) : Ending (List UInt8) :=
  if pos ≤ bytes.length then returns (bytes.drop pos) else panics

/-- A text in two parts, of which the first has this number of bytes. -/
def splitBytes : (size : Nat) → List Char → Option (List Char × List Char)
  | 0, text => some ([], text)
  | _ + 1, [] => none
  | size + 1, c :: text =>
    if c.utf8Size ≤ size + 1 then
      (splitBytes (size + 1 - c.utf8Size) text).map fun (front, rest) => (c :: front, rest)
    else none

/-- The text from one byte position to another one. -/
def slice (text : List Char) (start end_ : Nat) : Ending (List Char) :=
  if start ≤ end_ then
    match splitBytes start text with
    | none => panics
    | some (_, rest) =>
      match splitBytes (end_ - start) rest with
      | none => panics
      | some (part, _) => returns part
  else panics

/-- The text from a byte position on. -/
def sliceFrom (text : List Char) (start : Nat) : Ending (List Char) :=
  slice text start (byteLength text)

/-- The byte position of the first occurrence of `mark`. -/
def find (mark text : List Char) : Option Nat :=
  (splitAtFirst mark text).map fun (before, _) => byteLength before

variable {text front rest mid back : List Char}

theorem splitBytes_append (front rest : List Char) :
    splitBytes (byteLength front) (front ++ rest) = some (front, rest) := by
  induction front with
  | nil => cases rest <;> rfl
  | cons c front ih =>
      have hpos := c.utf8Size_pos
      obtain ⟨size, hsize⟩ := Nat.exists_eq_add_of_le' hpos
      have htotal : c.utf8Size + byteLength front = size + byteLength front + 1 := by omega
      have hleft : size + byteLength front + 1 - c.utf8Size = byteLength front := by omega
      rw [byteLength_cons, htotal, List.cons_append, splitBytes, if_pos (by omega), hleft, ih]
      rfl

theorem slice_of_eq_append {start end_ : Nat} (h : text = front ++ (mid ++ back))
    (hstart : start = byteLength front) (hend : end_ = start + byteLength mid) :
    slice text start end_ = returns mid := by
  have hsize : end_ - start = byteLength mid := by omega
  rw [slice, if_pos (by omega), h, hstart, splitBytes_append]
  rw [hstart] at hsize
  simp only [hsize, splitBytes_append]

theorem sliceFrom_of_eq_append {start : Nat} (h : text = front ++ rest)
    (hstart : start = byteLength front) : sliceFrom text start = returns rest := by
  have hsplit : text = front ++ (rest ++ []) := by rw [h, List.append_nil]
  refine slice_of_eq_append hsplit hstart ?_
  rw [h, byteLength_append, hstart]

theorem slice_of_lt {start end_ : Nat} (h : end_ < start) (text : List Char) :
    slice text start end_ = panics :=
  if_neg (Nat.not_le.mpr h)

theorem find_of_eq_some {mark before after : List Char}
    (h : splitAtFirst mark text = some (before, after)) :
    find mark text = some (byteLength before) := by
  rw [find, h]
  rfl

theorem find_of_eq_none {mark : List Char} (h : splitAtFirst mark text = none) :
    find mark text = none := by
  rw [find, h]
  rfl

/-! ### Bytes of characters -/

theorem bytes_append (text more : List Char) : bytes (text ++ more) = bytes text ++ bytes more :=
  List.flatMap_append

theorem bytes_cons (c : Char) (text : List Char) :
    bytes (c :: text) = String.utf8EncodeChar c ++ bytes text := rfl

theorem length_bytes (text : List Char) : (bytes text).length = byteLength text := by
  induction text with
  | nil => rfl
  | cons c text ih =>
      rw [bytes_cons, List.length_append, String.length_utf8EncodeChar, ih, byteLength_cons]

theorem toNat_le_of_utf8Size {c : Char} (h : c.utf8Size = 1) : c.toNat ≤ 127 :=
  Char.utf8Size_eq_one_iff.mp h

/-- A character of the ASCII range is its own byte. -/
theorem bytes_ascii {c : Char} (h : c.utf8Size = 1) (text : List Char) :
    bytes (c :: text) = c.toUInt8 :: bytes text := by
  rw [bytes_cons, String.utf8EncodeChar_eq_singleton h]
  rfl

/-- Characters of the ASCII range have different bytes. -/
theorem toUInt8_inj {c d : Char} (hc : c.utf8Size = 1) (hd : d.utf8Size = 1) :
    c.toUInt8 = d.toUInt8 ↔ c = d := by
  have hc := toNat_le_of_utf8Size hc
  have hd := toNat_le_of_utf8Size hd
  refine ⟨fun h => ?_, congrArg _⟩
  have h := congrArg UInt8.toNat h
  have hsize (c : Char) : c.toUInt8.toNat = c.toNat % 256 := rfl
  rw [hsize, hsize, Nat.mod_eq_of_lt (by omega), Nat.mod_eq_of_lt (by omega)] at h
  exact Char.toNat_inj.mp h

/-- The bytes of any other character are not those of ASCII characters. -/
theorem le_of_mem_utf8EncodeChar {c : Char} (h : c.utf8Size ≠ 1) {b : UInt8}
    (hb : b ∈ String.utf8EncodeChar c) : 128 ≤ b.toNat := by
  have hlarge : ¬c.val.toNat ≤ 127 := fun hle => h (Char.utf8Size_eq_one_iff.mpr hle)
  rw [String.utf8EncodeChar] at hb
  simp only [if_neg hlarge] at hb
  split at hb
  · simp only [List.mem_cons, List.not_mem_nil, or_false] at hb
    rcases hb with rfl | rfl <;> simp only [UInt8.toNat_ofNat'] <;> omega
  split at hb
  · simp only [List.mem_cons, List.not_mem_nil, or_false] at hb
    rcases hb with rfl | rfl | rfl <;> simp only [UInt8.toNat_ofNat'] <;> omega
  · simp only [List.mem_cons, List.not_mem_nil, or_false] at hb
    rcases hb with rfl | rfl | rfl | rfl <;> simp only [UInt8.toNat_ofNat'] <;> omega

theorem toUInt8_ne_of_le {b : UInt8} (hb : 128 ≤ b.toNat) {c : Char} (hc : c.utf8Size = 1) :
    b ≠ c.toUInt8 := by
  rintro rfl
  have hle := toNat_le_of_utf8Size hc
  have hsize : c.toUInt8.toNat = c.toNat % 256 := rfl
  omega

/-- The first byte of a character and the others, which are not those of ASCII characters. -/
theorem exists_utf8EncodeChar (c : Char) :
    ∃ b tail, String.utf8EncodeChar c = b :: tail ∧ ∀ d ∈ tail, 128 ≤ d.toNat := by
  by_cases h : c.utf8Size = 1
  · exact ⟨_, [], String.utf8EncodeChar_eq_singleton h, List.forall_mem_nil _⟩
  · have hlength := String.length_utf8EncodeChar c
    have hhigh (b : UInt8) (hb : b ∈ String.utf8EncodeChar c) : 128 ≤ b.toNat :=
      le_of_mem_utf8EncodeChar h hb
    cases hbytes : String.utf8EncodeChar c with
    | nil =>
        rw [hbytes] at hlength
        exact absurd hlength.symm (Nat.pos_iff_ne_zero.mp c.utf8Size_pos)
    | cons b tail =>
        rw [hbytes] at hhigh
        exact ⟨b, tail, rfl, (List.forall_mem_cons.mp hhigh).2⟩

/-- Every one of these characters is a single byte. -/
def areBytes (chars : List Char) : Bool :=
  chars.all (·.utf8Size = 1)

theorem utf8Size_of_mem {chars : List Char} (h : areBytes chars = true) :
    ∀ k ∈ chars, k.utf8Size = 1 := fun k hk =>
  of_decide_eq_true (List.all_eq_true.mp h k hk)

/-- Only the character itself begins with the byte of an ASCII character. -/
theorem isPrefixOf_bytes {mark : List Char} (h : ∀ c ∈ mark, c.utf8Size = 1) (text : List Char) :
    (bytes mark).isPrefixOf (bytes text) = mark.isPrefixOf text := by
  induction mark generalizing text with
  | nil => rfl
  | cons c mark ih =>
      rw [List.forall_mem_cons] at h
      rw [bytes_ascii h.1]
      cases text with
      | nil => rfl
      | cons x text =>
          by_cases hx : x.utf8Size = 1
          · have hsame : (c.toUInt8 == x.toUInt8) = (c == x) := by
              rw [Bool.eq_iff_iff, beq_iff_eq, beq_iff_eq, toUInt8_inj h.1 hx]
            rw [bytes_ascii hx, List.isPrefixOf, List.isPrefixOf, ih h.2, hsame]
          · have hne : c ≠ x := fun heq => hx (heq ▸ h.1)
            obtain ⟨b, tail, hbytes, -⟩ := exists_utf8EncodeChar x
            have hb := le_of_mem_utf8EncodeChar hx (hbytes ▸ List.mem_cons_self)
            rw [bytes_cons, hbytes, List.cons_append, List.isPrefixOf, List.isPrefixOf,
              beq_false_of_ne (toUInt8_ne_of_le hb h.1).symm, beq_false_of_ne hne]
            rfl

theorem byteAt_append (pre : List UInt8) (b : UInt8) (post : List UInt8) :
    byteAt (pre ++ b :: post) pre.length = returns b := by
  rw [byteAt, List.getElem?_append_right (Nat.le_refl _), Nat.sub_self]
  rfl

theorem bytesFrom_append (pre post : List UInt8) :
    bytesFrom (pre ++ post) pre.length = returns post := by
  rw [bytesFrom, if_pos (by rw [List.length_append]; omega), List.drop_left]

end Text

end QueryTemplate
