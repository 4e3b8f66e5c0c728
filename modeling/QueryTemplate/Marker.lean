import QueryTemplate.Text.Scan

/-!
Markers stand in rendered text for bound values: `U+FDD0`, the decimal index of the captured value,
`U+FDD1`. Both characters are Unicode noncharacters and form the reserved set: no template may
contain them, so an occurrence that is not a well-formed marker is a collision.
-/

namespace QueryTemplate

/-- Opens a marker. -/
def markerOpen : Char := '\ufdd0'

/-- Closes a marker. -/
def markerClose : Char := '\ufdd1'

def isReserved (c : Char) : Bool :=
  c == markerOpen || c == markerClose

/-- The marker of the captured value at `index`. -/
def encodeMarker (index : Nat) : String :=
  String.ofList (markerOpen :: (toString index).toList ++ [markerClose])

/-- UTF-8 offset of the first reserved character. -/
def findReserved (text : List Char) : Option Nat :=
  if text.any isReserved then some (Text.byteLength (text.takeWhile (!isReserved ·))) else none

def hasReserved (text : String) : Bool :=
  text.toList.any isReserved

/-- A piece of marked text. -/
inductive Segment where
  | text (run : List Char)
  | marker (index : Nat)
  deriving DecidableEq, Repr

/-- Why a text is not marked text. -/
inductive MarkerFault where
  | stray
  | unterminated
  | malformed
  deriving DecidableEq, Repr

/-- The first fault of a marked text and the UTF-8 offset of the reserved character it is at. -/
structure MarkerError where
  fault : MarkerFault
  offset : Nat
  deriving DecidableEq, Repr

namespace MarkerError

def message (e : MarkerError) : String :=
  let what := match e.fault with
    | .stray => "stray marker terminator"
    | .unterminated => "unterminated marker"
    | .malformed => "malformed marker"
  s!"{what} at byte {e.offset}"

end MarkerError

/-- Indices are 64-bit numbers. -/
def indexLimit : Nat :=
  Nat.pow 2 64

/-- The index in a marker's body: decimal digits with a value below the limit. -/
def markerIndex? (body : List Char) : Option Nat :=
  match Text.decimal? body with
  | some n => if n < indexLimit then some n else none
  | none => none

/-- What is in front of the first close character and what is behind it. -/
def splitAtClose : List Char → Option (List Char × List Char)
  | [] => none
  | c :: text =>
    if c = markerClose then some ([], text)
    else (splitAtClose text).map fun (body, rest) => (c :: body, rest)

/-- Puts a text run in front of the segments; an empty run is dropped. -/
def consRun (run : List Char) (segments : List Segment) : List Segment :=
  if run.isEmpty then segments else .text run :: segments

/-- Splits marked text that begins at byte `offset`. The first argument bounds the number of
markers; the length of the text is always enough, since a marker takes at least two characters. -/
def segmentsFrom : Nat → Nat → List Char → Except MarkerError (List Segment)
  | 0, _, text => .ok (consRun text [])
  | fuel + 1, offset, text =>
    let run := text.takeWhile (!isReserved ·)
    let start := offset + Text.byteLength run
    match text.dropWhile (!isReserved ·) with
    | [] => .ok (consRun run [])
    | c :: tail =>
      if c = markerClose then .error ⟨.stray, start⟩
      else
        match splitAtClose tail with
        | none => .error ⟨.unterminated, start⟩
        | some (body, rest) =>
          match markerIndex? body with
          | none => .error ⟨.malformed, start⟩
          | some index =>
            match segmentsFrom fuel
                (start + c.utf8Size + Text.byteLength body + markerClose.utf8Size) rest with
            | .ok segments => .ok (consRun run (.marker index :: segments))
            | .error e => .error e

/-- Splits marked text into its text runs and markers, in order. -/
def segments (text : List Char) : Except MarkerError (List Segment) :=
  segmentsFrom text.length 0 text

end QueryTemplate
