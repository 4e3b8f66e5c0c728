import QueryTemplate.Marker

/-!
Marked text as segments write it. Reading it gives the segments back, with adjacent text runs put
together and empty ones dropped.
-/

namespace QueryTemplate

/-- No character of the text is reserved. -/
def Clean (text : List Char) : Prop :=
  ∀ c ∈ text, isReserved c = false

instance (text : List Char) : Decidable (Clean text) :=
  List.decidableBAll _ text

theorem clean_iff {text : String} : Clean text.toList ↔ hasReserved text = false := by
  simp [Clean, hasReserved]

theorem clean_nil : Clean [] := fun _ hc => absurd hc List.not_mem_nil

theorem Clean.append {text more : List Char} (h : Clean text) (h' : Clean more) :
    Clean (text ++ more) := by
  intro c hc
  exact (List.mem_append.mp hc).elim (h c) (h' c)

namespace Segment

/-- The segment can stand in marked text. -/
def Writable : Segment → Prop
  | text run => Clean run
  | marker index => index < indexLimit

end Segment

/-- The marked text of some segments. -/
def writeSegments : List Segment → List Char
  | [] => []
  | .text run :: rest => run ++ writeSegments rest
  | .marker index :: rest => (encodeMarker index).toList ++ writeSegments rest

theorem writeSegments_append (segments more : List Segment) :
    writeSegments (segments ++ more) = writeSegments segments ++ writeSegments more := by
  induction segments with
  | nil => rfl
  | cons segment rest ih => cases segment <;> simp [writeSegments, ih]

/-- Puts a text run in front of segments, together with the run they begin with. -/
def mergeRun (run : List Char) : List Segment → List Segment
  | .text more :: rest => .text (run ++ more) :: rest
  | segments => consRun run segments

/-- The segments without empty text runs and with adjacent ones put together. -/
def mergeRuns : List Segment → List Segment
  | [] => []
  | .text run :: rest => mergeRun run (mergeRuns rest)
  | .marker index :: rest => .marker index :: mergeRuns rest

theorem mergeRun_nil (segments : List Segment) : mergeRun [] segments = segments := by
  unfold mergeRun
  split <;> rfl

theorem mergeRun_append (run more : List Char) (segments : List Segment) :
    mergeRun run (mergeRun more segments) = mergeRun (run ++ more) segments := by
  cases segments with
  | nil => cases run <;> cases more <;> simp [mergeRun, consRun]
  | cons segment rest =>
      cases segment with
      | text last => simp [mergeRun]
      | marker index => cases run <;> cases more <;> simp [mergeRun, consRun]

/-! ### Markers -/

theorem toList_encodeMarker (index : Nat) :
    (encodeMarker index).toList = markerOpen :: ((toString index).toList ++ [markerClose]) := by
  rw [encodeMarker, String.toList_ofList]
  rfl

theorem isDigit_of_mem_toString {index : Nat} {c : Char} (h : c ∈ (toString index).toList) :
    c.isDigit = true := by
  rw [show toString index = index.repr from rfl, Nat.toList_repr] at h
  exact Nat.isDigit_of_mem_toDigits (by decide) (by decide) h

theorem isReserved_of_isDigit {c : Char} (h : c.isDigit = true) : isReserved c = false := by
  rw [isReserved, Bool.or_eq_false_iff, beq_eq_false_iff_ne, beq_eq_false_iff_ne]
  constructor
  · rintro rfl
    revert h
    decide
  · rintro rfl
    revert h
    decide

theorem clean_toString (index : Nat) : Clean (toString index).toList := fun _ hc =>
  isReserved_of_isDigit (isDigit_of_mem_toString hc)

theorem isAsciiDigit_of_isDigit {c : Char} (h : c.isDigit = true) : Text.isAsciiDigit c = true :=
  h

theorem decimal?_toString (n : Nat) : Text.decimal? (toString n).toList = some n := by
  have hdigits : (toString n).toList.all Text.isAsciiDigit = true :=
    List.all_eq_true.mpr fun c hc => isAsciiDigit_of_isDigit (isDigit_of_mem_toString hc)
  have hne : (toString n).toList.isEmpty = false := by
    rw [show toString n = n.repr from rfl, Nat.toList_repr]
    simp [Nat.toDigits_ne_nil]
  rw [Text.decimal?, hdigits, hne]
  rw [show toString n = n.repr from rfl, Nat.toList_repr]
  exact congrArg some Nat.ofDigitChars_ten_toDigits

theorem toString_injective {m n : Nat} (h : toString m = toString n) : m = n := by
  have hm := decimal?_toString m
  rw [h, decimal?_toString] at hm
  exact (Option.some.inj hm).symm

theorem markerIndex?_toString {index : Nat} (h : index < indexLimit) :
    markerIndex? (toString index).toList = some index := by
  simp only [markerIndex?, decimal?_toString, if_pos h]

theorem Clean.close_not_mem {text : List Char} (h : Clean text) : markerClose ∉ text := fun hmem =>
  absurd (h _ hmem) (by decide)

theorem splitAtClose_append {body : List Char} (h : markerClose ∉ body) (rest : List Char) :
    splitAtClose (body ++ markerClose :: rest) = some (body, rest) := by
  induction body with
  | nil => simp [splitAtClose]
  | cons c body ih =>
      rw [List.mem_cons, not_or] at h
      rw [List.cons_append, splitAtClose, if_neg (Ne.symm h.1), ih h.2]
      rfl

/-! ### Reading what was written -/

theorem takeWhile_clean_append {run : List Char} (h : Clean run) (rest : List Char) :
    (run ++ rest).takeWhile (!isReserved ·) = run ++ rest.takeWhile (!isReserved ·) :=
  List.takeWhile_append_of_pos fun c hc => by simp [h c hc]

theorem dropWhile_clean_append {run : List Char} (h : Clean run) (rest : List Char) :
    (run ++ rest).dropWhile (!isReserved ·) = rest.dropWhile (!isReserved ·) :=
  List.dropWhile_append_of_pos fun c hc => by simp [h c hc]

theorem segmentsFrom_clean {run : List Char} (h : Clean run) (fuel offset : Nat) :
    segmentsFrom fuel offset run = .ok (consRun run []) := by
  cases fuel with
  | zero => rfl
  | succ fuel =>
      have htake := takeWhile_clean_append h []
      have hdrop := dropWhile_clean_append h []
      rw [List.append_nil] at htake hdrop
      simp only [segmentsFrom, htake, hdrop, List.dropWhile_nil, List.takeWhile_nil,
        List.append_nil]

/-- A text run is read up to the reserved character behind it. -/
theorem segmentsFrom_run {run : List Char} (h : Clean run) {tail : List Char}
    (htail : ∀ c ∈ tail.head?, isReserved c = true) (fuel offset : Nat) :
    segmentsFrom (fuel + 1) offset (run ++ tail) =
      (segmentsFrom (fuel + 1) (offset + Text.byteLength run) tail).map (consRun run) := by
  rw [segmentsFrom, segmentsFrom, takeWhile_clean_append h, dropWhile_clean_append h]
  cases tail with
  | nil =>
      simp only [List.takeWhile_nil, List.dropWhile_nil, List.append_nil]
      rfl
  | cons c tail =>
      have hc : (!isReserved c) = false := by simp [htail c rfl]
      simp only [List.takeWhile_cons, List.dropWhile_cons, hc, Bool.false_eq_true, if_false,
        List.append_nil]
      split
      · rfl
      · split
        · rfl
        · split
          · rfl
          · simp only [show Text.byteLength [] = 0 from rfl, Nat.add_zero]
            generalize segmentsFrom fuel _ _ = read
            cases read with
            | ok segments => rfl
            | error e => rfl

/-- A marker is read if its body is an index. -/
theorem segmentsFrom_body {body : List Char} (hclose : markerClose ∉ body) {index : Nat}
    (hindex : markerIndex? body = some index) (fuel offset : Nat) (rest : List Char) :
    segmentsFrom (fuel + 1) offset (markerOpen :: (body ++ markerClose :: rest)) =
      (segmentsFrom fuel
        (offset + markerOpen.utf8Size + Text.byteLength body + markerClose.utf8Size) rest).map
          (.marker index :: ·) := by
  have hne : markerOpen ≠ markerClose := by decide
  have hopen : isReserved markerOpen = true := by decide
  rw [segmentsFrom]
  simp only [List.takeWhile_cons, List.dropWhile_cons, hopen, Bool.not_true, Bool.false_eq_true,
    if_false, hne, splitAtClose_append hclose, hindex, show Text.byteLength [] = 0 from rfl,
    Nat.add_zero]
  generalize segmentsFrom fuel _ rest = read
  cases read with
  | ok segments => rfl
  | error e => rfl

theorem segmentsFrom_marker {run : List Char} (h : Clean run) {index : Nat}
    (hindex : index < indexLimit) (fuel offset : Nat) (rest : List Char) :
    segmentsFrom (fuel + 1) offset (run ++ ((encodeMarker index).toList ++ rest)) =
      (segmentsFrom fuel (offset + Text.byteLength run + markerOpen.utf8Size +
        Text.byteLength (toString index).toList + markerClose.utf8Size) rest).map fun segments =>
          consRun run (.marker index :: segments) := by
  have hopen : ∀ c ∈ ((encodeMarker index).toList ++ rest).head?, isReserved c = true := by
    rw [toList_encodeMarker]
    rintro c ⟨⟩
    rfl
  rw [segmentsFrom_run h hopen, toList_encodeMarker, List.cons_append, List.append_assoc,
    List.singleton_append, segmentsFrom_body (clean_toString index).close_not_mem
      (markerIndex?_toString hindex)]
  generalize segmentsFrom fuel _ rest = read
  cases read with
  | ok segments => rfl
  | error e => rfl

theorem segmentsFrom_writeSegments {segs : List Segment} (h : ∀ segment ∈ segs, segment.Writable)
    {run : List Char} (hrun : Clean run) {fuel : Nat} (hfuel : (writeSegments segs).length ≤ fuel)
    (offset : Nat) :
    segmentsFrom fuel offset (run ++ writeSegments segs) = .ok (mergeRun run (mergeRuns segs)) := by
  -- the text in front collects adjacent text runs until a marker ends them
  induction segs generalizing run fuel offset with
  | nil =>
      rw [writeSegments, List.append_nil, segmentsFrom_clean hrun]
      rfl
  | cons segment rest ih =>
      have hrest : ∀ segment ∈ rest, segment.Writable := fun s hs =>
        h s (List.mem_cons_of_mem segment hs)
      cases segment with
      | text more =>
          have hmore : Clean more := h _ List.mem_cons_self
          rw [writeSegments, ← List.append_assoc, mergeRuns, mergeRun_append]
          refine ih hrest (hrun.append hmore) ?_ offset
          rw [writeSegments, List.length_append] at hfuel
          omega
      | marker index =>
          have hindex : index < indexLimit := h _ List.mem_cons_self
          rw [writeSegments, toList_encodeMarker, List.length_append, List.length_cons] at hfuel
          obtain ⟨fuel, rfl⟩ := Nat.exists_eq_succ_of_ne_zero (show fuel ≠ 0 by omega)
          have hread (offset : Nat) := ih hrest clean_nil
            (show (writeSegments rest).length ≤ fuel by omega) offset
          simp only [List.nil_append, mergeRun_nil] at hread
          rw [writeSegments, segmentsFrom_marker hrun hindex, hread]
          rfl

/-- Reading undoes writing. -/
theorem segments_writeSegments {segs : List Segment} (h : ∀ segment ∈ segs, segment.Writable) :
    segments (writeSegments segs) = .ok (mergeRuns segs) := by
  have hread := segmentsFrom_writeSegments h clean_nil (Nat.le_refl _) 0
  rwa [List.nil_append, mergeRun_nil] at hread

/-! ### Any text that is read -/

/-- The text reads as the segments: a marker is its delimiters around a decimal number, with or
without leading zeros. -/
inductive ReadAs : List Char → List Segment → Prop
  | run {run} (hrun : Clean run) : ReadAs run (consRun run [])
  | marker {run body index text segs} (hrun : Clean run) (hindex : markerIndex? body = some index)
      (rest : ReadAs text segs) :
      ReadAs (run ++ markerOpen :: (body ++ markerClose :: text))
        (consRun run (.marker index :: segs))

theorem clean_takeWhile (text : List Char) : Clean (text.takeWhile (!isReserved ·)) := by
  intro c hc
  simpa using List.all_eq_true.mp List.all_takeWhile c hc

theorem clean_of_markerIndex? {body : List Char} {index : Nat}
    (h : markerIndex? body = some index) : Clean body := by
  intro c hc
  rw [markerIndex?, Text.decimal?] at h
  split at h
  · rename_i hdecimal
    split at hdecimal
    · contradiction
    · rename_i hdigits
      simp only [Bool.or_eq_true, Bool.not_eq_true', not_or, Bool.not_eq_false] at hdigits
      exact isReserved_of_isDigit (List.all_eq_true.mp hdigits.2 c hc)
  · contradiction

theorem eq_append_of_splitAtClose {text body rest : List Char}
    (h : splitAtClose text = some (body, rest)) : text = body ++ markerClose :: rest := by
  induction text generalizing body with
  | nil => contradiction
  | cons c text ih =>
      rw [splitAtClose] at h
      split at h
      · rename_i hc
        cases h
        rw [hc]
        rfl
      · obtain ⟨⟨body', rest'⟩, hsplit, heq⟩ := Option.map_eq_some_iff.mp h
        cases heq
        rw [ih hsplit]
        rfl

theorem readAs_of_segmentsFrom {fuel offset : Nat} {text : List Char} {segs : List Segment}
    (hfuel : text.length ≤ fuel) (h : segmentsFrom fuel offset text = .ok segs) :
    ReadAs text segs := by
  induction fuel generalizing offset text segs with
  | zero =>
      obtain rfl := List.length_eq_zero_iff.mp (Nat.le_zero.mp hfuel)
      cases h
      exact .run clean_nil
  | succ fuel ih =>
      have htext := List.takeWhile_append_dropWhile (p := (!isReserved ·)) (l := text)
      rw [segmentsFrom] at h
      generalize hdrop : text.dropWhile (!isReserved ·) = tail at h htext
      cases tail with
      | nil =>
          cases h
          rw [List.append_nil] at htext
          have hclean := clean_takeWhile text
          rw [htext] at hclean ⊢
          exact .run hclean
      | cons c tail =>
          -- Behind the clean run stands a reserved character: it opens a marker, or nothing is read.
          have hc : isReserved c = true := by
            have hhead := List.head?_dropWhile_not (p := (!isReserved ·)) text
            rw [hdrop] at hhead
            simpa using hhead
          simp only at h
          split at h
          · contradiction
          · rename_i hclose
            obtain rfl : c = markerOpen := by
              rw [isReserved, Bool.or_eq_true, beq_iff_eq, beq_iff_eq] at hc
              exact hc.resolve_right hclose
            split at h
            · contradiction
            · rename_i body rest hsplit
              split at h
              · contradiction
              · rename_i index hindex
                split at h
                · rename_i more hmore
                  cases h
                  have htail := eq_append_of_splitAtClose hsplit
                  have hlength := congrArg List.length htext
                  rw [htail] at htext hlength
                  simp only [List.length_append, List.length_cons] at hlength
                  have hread := ReadAs.marker (clean_takeWhile text) hindex (ih (by omega) hmore)
                  rwa [htext] at hread
                · contradiction

theorem readAs_of_segments {text : List Char} {segs : List Segment}
    (h : segments text = .ok segs) : ReadAs text segs :=
  readAs_of_segmentsFrom (Nat.le_refl _) h

end QueryTemplate
