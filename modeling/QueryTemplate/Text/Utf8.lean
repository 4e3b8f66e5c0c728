/-!
Reading UTF-8.
-/

namespace QueryTemplate.Text

def replacement : Char := Char.ofNat 0xFFFD

/-- The bounds of the second byte of a sequence that begins with `first`, and how many bytes
follow `first`; nothing if no sequence begins so. -/
def sequenceShape? (first : Nat) : Option (Nat × Nat × Nat) :=
  if 0xC2 ≤ first && first ≤ 0xDF then some (1, 0x80, 0xBF)
  else if first == 0xE0 then some (2, 0xA0, 0xBF)
  else if first == 0xED then some (2, 0x80, 0x9F)
  else if 0xE1 ≤ first && first ≤ 0xEF then some (2, 0x80, 0xBF)
  else if first == 0xF0 then some (3, 0x90, 0xBF)
  else if 0xF1 ≤ first && first ≤ 0xF3 then some (3, 0x80, 0xBF)
  else if first == 0xF4 then some (3, 0x80, 0x8F)
  else none

/-- Reads UTF-8. `pending` is the value of a sequence of which `missing` bytes are still to come,
the next one within `low..high`. With `strict` a broken sequence makes the reading fail; otherwise
it is read as a replacement character, and so is every byte that cannot begin a sequence. -/
def decodeFrom (strict : Bool) (pending missing low high : Nat) : List UInt8 → Option (List Char)
  | [] =>
    if missing == 0 then some [] else if strict then none else some [replacement]
  | b :: rest =>
    let n := b.toNat
    if missing == 0 then
      if n < 0x80 then (decodeFrom strict 0 0 0 0 rest).map (Char.ofNat n :: ·)
      else
        match sequenceShape? n with
        | some (more, lo, hi) =>
          let head := if more == 1 then n - 0xC0 else if more == 2 then n - 0xE0 else n - 0xF0
          decodeFrom strict head more lo hi rest
        | none =>
          if strict then none else (decodeFrom strict 0 0 0 0 rest).map (replacement :: ·)
    else if low ≤ n && n ≤ high then
      let value := pending * 64 + (n - 0x80)
      if missing == 1 then (decodeFrom strict 0 0 0 0 rest).map (Char.ofNat value :: ·)
      else decodeFrom strict value (missing - 1) 0x80 0xBF rest
    else if strict then none
    else if n < 0x80 then
      (decodeFrom strict 0 0 0 0 rest).map fun tail => replacement :: Char.ofNat n :: tail
    else
      match sequenceShape? n with
      | some (more, lo, hi) =>
        let head := if more == 1 then n - 0xC0 else if more == 2 then n - 0xE0 else n - 0xF0
        (decodeFrom strict head more lo hi rest).map (replacement :: ·)
      | none =>
        (decodeFrom strict 0 0 0 0 rest).map fun tail => replacement :: replacement :: tail

/-- The text of bytes that are well-formed UTF-8. -/
def decode? (bytes : List UInt8) : Option String :=
  (decodeFrom true 0 0 0 0 bytes).map String.ofList

/-- The text of any bytes, with a replacement character for each broken sequence. -/
def decodeLossy (bytes : List UInt8) : String :=
  String.ofList ((decodeFrom false 0 0 0 0 bytes).getD [])

end QueryTemplate.Text
