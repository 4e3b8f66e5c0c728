import QueryTemplate.Proofs.MarkedText

/-!
The grammar of marked text. Reading accepts the texts of the grammar and no others; what it returns
is in normal form, and writing it again changes nothing but leading zeros of indices. About any
other text it tells the first fault: where it is, and which rule is broken there.
-/

namespace QueryTemplate

/-! ### Indices -/

/-- The body of a marker: an index in decimal, with leading zeros or without. -/
structure IsIndex (body : List Char) : Prop where
  nonempty : body ≠ []
  digits : ∀ c ∈ body, c.isDigit = true
  bounded : Nat.ofDigitChars 10 body 0 < indexLimit

theorem markerIndex?_eq_some_iff {body : List Char} {index : Nat} :
    markerIndex? body = some index ↔ IsIndex body ∧ Nat.ofDigitChars 10 body 0 = index := by
  have hvalue : body.foldl (fun n c => 10 * n + (c.toNat - '0'.toNat)) 0 =
      Nat.ofDigitChars 10 body 0 := Nat.ofDigitChars_eq_foldl.symm
  rw [markerIndex?, Text.decimal?, hvalue]
  constructor
  · intro h
    split at h
    · rename_i n hdecimal
      split at hdecimal
      · contradiction
      · rename_i hdigits
        simp only [Bool.or_eq_true, Bool.not_eq_true', not_or, Bool.not_eq_false,
          List.isEmpty_iff] at hdigits
        cases hdecimal
        split at h
        · rename_i hlimit
          cases h
          exact ⟨⟨hdigits.1, List.all_eq_true.mp hdigits.2, hlimit⟩, rfl⟩
        · contradiction
    · contradiction
  · rintro ⟨h, rfl⟩
    have hne : body.isEmpty = false := by simpa using h.nonempty
    have hdigits : body.all Text.isAsciiDigit = true := List.all_eq_true.mpr h.digits
    simp only [hne, hdigits, Bool.not_true, Bool.or_false, Bool.false_eq_true, if_false,
      if_pos h.bounded]

theorem markerIndex?_eq_none {body : List Char} (h : ¬IsIndex body) : markerIndex? body = none := by
  cases hindex : markerIndex? body with
  | none => rfl
  | some index => exact absurd (markerIndex?_eq_some_iff.mp hindex).1 h

theorem digitChar_of_isDigit {c : Char} (h : c.isDigit = true) :
    c.toNat - '0'.toNat < 10 ∧ (c.toNat - '0'.toNat).digitChar = c := by
  have hzero : '0'.toNat = 48 := rfl
  rw [Char.isDigit, Bool.and_eq_true, decide_eq_true_iff, decide_eq_true_iff] at h
  have hlow : 48 ≤ c.toNat := h.1
  have hhigh : c.toNat ≤ 57 := h.2
  have hlt : c.toNat - '0'.toNat < 10 := by omega
  refine ⟨hlt, Char.toNat_inj.mp ?_⟩
  rw [Nat.toNat_digitChar_of_lt_ten hlt]
  omega

/-- The digits of a number that goes on with further digits. -/
theorem toDigits_ofDigitChars {digits : List Char} (h : ∀ c ∈ digits, c.isDigit = true) {n : Nat}
    (hn : 0 < n) :
    Nat.toDigits 10 (Nat.ofDigitChars 10 digits n) = Nat.toDigits 10 n ++ digits := by
  induction digits generalizing n with
  | nil => rw [Nat.ofDigitChars_nil, List.append_nil]
  | cons c rest ih =>
      obtain ⟨hlt, hchar⟩ := digitChar_of_isDigit (h c List.mem_cons_self)
      rw [Nat.ofDigitChars_cons, ih (fun d hd => h d (List.mem_cons_of_mem c hd)) (by omega),
        ← Nat.toDigits_append_toDigits (by decide) hn hlt, Nat.toDigits_of_lt_base hlt, hchar,
        List.append_assoc, List.singleton_append]

/-- A number is written as its digits, if they do not begin with a zero. -/
theorem toDigits_of_head_ne_zero {c : Char} {rest : List Char}
    (h : ∀ d ∈ c :: rest, d.isDigit = true) (hc : c ≠ '0') :
    Nat.toDigits 10 (Nat.ofDigitChars 10 (c :: rest) 0) = c :: rest := by
  obtain ⟨hlt, hchar⟩ := digitChar_of_isDigit (h c List.mem_cons_self)
  have hpos : 0 < c.toNat - '0'.toNat := by
    refine Nat.pos_of_ne_zero fun hzero => hc ?_
    rw [← hchar, hzero]
    rfl
  rw [Nat.ofDigitChars_cons, Nat.mul_zero, Nat.zero_add,
    toDigits_ofDigitChars (fun d hd => h d (List.mem_cons_of_mem c hd)) hpos,
    Nat.toDigits_of_lt_base hlt, hchar, List.singleton_append]

/-! ### Texts and segments of the grammar -/

/-- Marked text: characters that are not reserved, and markers. -/
inductive Marked : List Char → Prop
  | nil : Marked []
  | char {c text} (hc : isReserved c = false) (rest : Marked text) : Marked (c :: text)
  | marker {body text} (hbody : IsIndex body) (rest : Marked text) :
      Marked (markerOpen :: (body ++ markerClose :: text))

namespace MarkerFault

/-- The rule of the grammar that is broken by a reserved character with the given text behind it. -/
inductive BreaksAt : MarkerFault → Char → List Char → Prop
  | stray {rest} : BreaksAt .stray markerClose rest
  | unterminated {rest} (hclose : markerClose ∉ rest) : BreaksAt .unterminated markerOpen rest
  | malformed {body rest} (hclose : markerClose ∉ body) (hbody : ¬IsIndex body) :
      BreaksAt .malformed markerOpen (body ++ markerClose :: rest)

end MarkerFault

/-- Segments as reading returns them: they can be written, no text run is empty, and there is a
marker between any two of them. -/
structure InNormalForm (segs : List Segment) : Prop where
  writable : ∀ segment ∈ segs, segment.Writable
  nonempty : ∀ run, .text run ∈ segs → run ≠ []
  separated : ∀ front run more back, segs ≠ front ++ .text run :: .text more :: back

/-- A text without the leading zeros of its markers' indices. `atBody` says whether the body of a
marker begins here. -/
def dropLeadingZeros : (atBody : Bool) → List Char → List Char
  | _, [] => []
  | atBody, c :: text =>
    if atBody && c == '0' && text.head? != some markerClose then dropLeadingZeros true text
    else c :: dropLeadingZeros (c == markerOpen) text

/-! ### Reading in parts -/

theorem byteLength_cons (c : Char) (text : List Char) :
    Text.byteLength (c :: text) = c.utf8Size + Text.byteLength text := rfl

theorem byteLength_append (text more : List Char) :
    Text.byteLength (text ++ more) = Text.byteLength text + Text.byteLength more := by
  induction text with
  | nil => exact (Nat.zero_add _).symm
  | cons c text ih =>
      rw [List.cons_append, byteLength_cons, byteLength_cons, ih, Nat.add_assoc]

theorem Clean.cons {c : Char} {text : List Char} (hc : isReserved c = false) (h : Clean text) :
    Clean (c :: text) := by
  intro d hd
  rcases List.mem_cons.mp hd with rfl | hd
  · exact hc
  · exact h d hd

/-- Marked text reads as some segments. -/
theorem Marked.exists_readAs {text : List Char} (h : Marked text) : ∃ segs, ReadAs text segs := by
  induction h with
  | nil => exact ⟨_, .run clean_nil⟩
  | char hc _ ih =>
      obtain ⟨segs, hread⟩ := ih
      cases hread with
      | run hrun => exact ⟨_, .run (hrun.cons hc)⟩
      | marker hrun hindex rest => exact ⟨_, .marker (hrun.cons hc) hindex rest⟩
  | marker hbody _ ih =>
      obtain ⟨segs, hread⟩ := ih
      exact ⟨_, .marker clean_nil (markerIndex?_eq_some_iff.mpr ⟨hbody, rfl⟩) hread⟩

theorem consRun_append (run : List Char) (segs more : List Segment) :
    consRun run (segs ++ more) = consRun run segs ++ more := by
  cases run with
  | nil => rfl
  | cons c run => rfl

/-- What can be read is read up to a reserved character behind it, and the reading goes on there. -/
theorem ReadAs.segmentsFrom_append {text : List Char} {segs : List Segment} (h : ReadAs text segs)
    {tail : List Char} (htail : ∀ c ∈ tail.head?, isReserved c = true) {fuel : Nat}
    (hfuel : (text ++ tail).length ≤ fuel) (offset : Nat) :
    ∃ left, tail.length ≤ left ∧ segmentsFrom fuel offset (text ++ tail) =
      (segmentsFrom left (offset + Text.byteLength text) tail).map (segs ++ ·) := by
  induction h generalizing fuel offset with
  | @run run hrun =>
      cases fuel with
      | zero =>
          obtain ⟨rfl, rfl⟩ := List.append_eq_nil_iff.mp (List.length_eq_zero_iff.mp
            (Nat.le_zero.mp hfuel))
          exact ⟨0, Nat.le_refl 0, rfl⟩
      | succ fuel =>
          rw [List.length_append] at hfuel
          refine ⟨fuel + 1, by omega, ?_⟩
          rw [segmentsFrom_run hrun htail]
          exact congrArg (Except.map · _) (funext fun more => consRun_append run [] more)
  | @marker run body index text segs hrun hindex _ ih =>
      -- The run in front ends where the marker opens, and the body of the marker where it closes.
      rw [List.append_assoc, List.length_append, List.cons_append, List.length_cons,
        List.append_assoc, List.length_append, List.cons_append, List.length_cons] at hfuel
      obtain ⟨fuel, rfl⟩ := Nat.exists_eq_succ_of_ne_zero (show fuel ≠ 0 by omega)
      have hopen : ∀ c ∈ (markerOpen :: (body ++ markerClose :: (text ++ tail))).head?,
          isReserved c = true := by
        rintro c ⟨⟩
        rfl
      have hfuel' : (text ++ tail).length ≤ fuel := by omega
      obtain ⟨left, hleft, hrest⟩ := ih hfuel' (offset + Text.byteLength run +
        markerOpen.utf8Size + Text.byteLength body + markerClose.utf8Size)
      refine ⟨left, hleft, ?_⟩
      have hoffset : offset + Text.byteLength run + markerOpen.utf8Size + Text.byteLength body +
          markerClose.utf8Size + Text.byteLength text =
            offset + Text.byteLength (run ++ markerOpen :: (body ++ markerClose :: text)) := by
        simp only [byteLength_append, byteLength_cons]
        omega
      rw [List.append_assoc, List.cons_append, List.append_assoc, List.cons_append,
        segmentsFrom_run hrun hopen,
        segmentsFrom_body (clean_of_markerIndex? hindex).close_not_mem hindex, hrest, hoffset]
      cases segmentsFrom left _ tail with
      | ok more => exact congrArg Except.ok (consRun_append run (.marker index :: segs) more)
      | error e => rfl

/-- Marked text is read. -/
theorem Marked.exists_segments {text : List Char} (h : Marked text) :
    ∃ segs, segments text = .ok segs := by
  obtain ⟨segs, hread⟩ := h.exists_readAs
  have htail : ∀ c ∈ ([] : List Char).head?, isReserved c = true := nofun
  obtain ⟨left, -, hleft⟩ := hread.segmentsFrom_append htail (Nat.le_refl _) 0
  have hend (offset : Nat) : segmentsFrom left offset [] = .ok [] := segmentsFrom_clean clean_nil _ _
  rw [hend, List.append_nil] at hleft
  exact ⟨_, hleft⟩

theorem splitAtClose_of_not_mem {text : List Char} (h : markerClose ∉ text) :
    splitAtClose text = none := by
  induction text with
  | nil => rfl
  | cons c text ih =>
      rw [List.mem_cons, not_or] at h
      rw [splitAtClose, if_neg (Ne.symm h.1), ih h.2]
      rfl

namespace MarkerFault.BreaksAt

variable {fault : MarkerFault} {c : Char} {rest : List Char}

theorem reserved (h : fault.BreaksAt c rest) : isReserved c = true := by
  cases h <;> rfl

/-- A broken rule is found where it is broken. -/
theorem segmentsFrom_eq (h : fault.BreaksAt c rest) (fuel offset : Nat) :
    segmentsFrom (fuel + 1) offset (c :: rest) = .error ⟨fault, offset⟩ := by
  have hc : (!isReserved c) = false := by simp [h.reserved]
  have hne : markerOpen ≠ markerClose := by decide
  rw [segmentsFrom]
  simp only [List.takeWhile_cons, List.dropWhile_cons, hc, Bool.false_eq_true, if_false]
  cases h with
  | stray => rw [if_pos rfl]; rfl
  | unterminated hclose => simp only [if_neg hne, splitAtClose_of_not_mem hclose]; rfl
  | malformed hclose hbody =>
      simp only [if_neg hne, splitAtClose_append hclose, markerIndex?_eq_none hbody]
      rfl

/-- Reading stops at a broken rule behind marked text. -/
theorem segments_eq {before : List Char} (h : fault.BreaksAt c rest) (hbefore : Marked before) :
    segments (before ++ c :: rest) = .error ⟨fault, Text.byteLength before⟩ := by
  obtain ⟨segs, hread⟩ := hbefore.exists_readAs
  have htail : ∀ d ∈ (c :: rest).head?, isReserved d = true := by
    rintro d ⟨⟩
    exact h.reserved
  obtain ⟨left, hleft, hsegments⟩ := hread.segmentsFrom_append htail (Nat.le_refl _) 0
  obtain ⟨left, rfl⟩ := Nat.exists_eq_succ_of_ne_zero (Nat.ne_zero_of_lt hleft)
  rw [h.segmentsFrom_eq, Nat.zero_add] at hsegments
  exact hsegments

end MarkerFault.BreaksAt

/-- A text is marked, or a first rule is broken in it. -/
theorem marked_or_breaksAt (text : List Char) :
    Marked text ∨ ∃ before c rest fault,
      text = before ++ c :: rest ∧ Marked before ∧ MarkerFault.BreaksAt fault c rest := by
  -- on the length, since a marker takes all of its body at once
  induction hlength : text.length using Nat.strongRecOn generalizing text with
  | ind length ih =>
      cases text with
      | nil => exact .inl .nil
      | cons c text =>
          rw [List.length_cons] at hlength
          by_cases hc : isReserved c = true
          · rcases (by simpa [isReserved] using hc : c = markerOpen ∨ c = markerClose) with rfl | rfl
            · by_cases hclose : markerClose ∈ text
              · obtain ⟨body, rest, rfl, hbody⟩ := List.eq_append_cons_of_mem hclose
                by_cases hindex : IsIndex body
                · rw [List.length_append, List.length_cons] at hlength
                  rcases ih rest.length (by omega) rest rfl with
                    hrest | ⟨before, d, more, fault, rfl, hbefore, hbreaks⟩
                  · exact .inl (.marker hindex hrest)
                  · refine .inr ⟨_, d, more, fault, ?_, .marker hindex hbefore, hbreaks⟩
                    simp
                · exact .inr ⟨[], _, _, _, rfl, .nil, .malformed hbody hindex⟩
              · exact .inr ⟨[], _, _, _, rfl, .nil, .unterminated hclose⟩
            · exact .inr ⟨[], _, _, _, rfl, .nil, .stray⟩
          · rw [Bool.not_eq_true] at hc
            rcases ih text.length (by omega) text rfl with
              hrest | ⟨before, d, more, fault, rfl, hbefore, hbreaks⟩
            · exact .inl (.char hc hrest)
            · exact .inr ⟨c :: before, d, more, fault, rfl, .char hc hbefore, hbreaks⟩

theorem exists_segments_eq_ok_iff (text : List Char) :
    (∃ segs, segments text = .ok segs) ↔ Marked text := by
  refine ⟨fun ⟨segs, hsegs⟩ => ?_, Marked.exists_segments⟩
  rcases marked_or_breaksAt text with h | ⟨before, c, rest, fault, rfl, hbefore, hbreaks⟩
  · exact h
  · rw [hbreaks.segments_eq hbefore] at hsegs
    contradiction

theorem segments_eq_error_iff (text : List Char) (fault : MarkerFault) (offset : Nat) :
    segments text = .error ⟨fault, offset⟩ ↔
      ∃ before c rest, text = before ++ c :: rest ∧ isReserved c = true ∧
        Text.byteLength before = offset ∧ Marked before ∧ fault.BreaksAt c rest := by
  constructor
  · intro herror
    rcases marked_or_breaksAt text with h | ⟨before, c, rest, fault, rfl, hbefore, hbreaks⟩
    · obtain ⟨segs, hsegs⟩ := h.exists_segments
      rw [hsegs] at herror
      contradiction
    · rw [hbreaks.segments_eq hbefore] at herror
      cases herror
      exact ⟨before, c, rest, rfl, hbreaks.reserved, rfl, hbefore, hbreaks⟩
  · rintro ⟨before, c, rest, rfl, -, rfl, hbefore, hbreaks⟩
    exact hbreaks.segments_eq hbefore

/-! ### Normal form -/

namespace InNormalForm

theorem nil : InNormalForm [] where
  writable _ h := absurd h List.not_mem_nil
  nonempty _ h := absurd h List.not_mem_nil
  separated front run more back h := by
    have hlength := congrArg List.length h
    rw [List.length_append, List.length_cons] at hlength
    contradiction

variable {segment : Segment} {rest : List Segment}

theorem tail (h : InNormalForm (segment :: rest)) : InNormalForm rest where
  writable s hs := h.writable s (List.mem_cons_of_mem segment hs)
  nonempty run hrun := h.nonempty run (List.mem_cons_of_mem segment hrun)
  separated front run more back hrest :=
    h.separated (segment :: front) run more back (congrArg (segment :: ·) hrest)

theorem marker (h : InNormalForm rest) {index : Nat} (hindex : index < indexLimit) :
    InNormalForm (.marker index :: rest) where
  writable s hs := by
    rcases List.mem_cons.mp hs with rfl | hs
    · exact hindex
    · exact h.writable s hs
  nonempty run hrun := h.nonempty run (by simpa using hrun)
  separated front run more back hsegs := by
    cases front with
    | nil => cases hsegs
    | cons first front => exact h.separated front run more back (List.cons.inj hsegs).2

/-- A text run in front of segments that do not begin with one. -/
theorem consRun (h : InNormalForm rest) (hrest : ∀ more back, rest ≠ .text more :: back)
    {run : List Char} (hrun : Clean run) : InNormalForm (consRun run rest) := by
  cases run with
  | nil => exact h
  | cons c run =>
      refine ⟨fun s hs => ?_, fun more hmore => ?_, fun front first second back hsegs => ?_⟩
      · rcases List.mem_cons.mp hs with rfl | hs
        · exact hrun
        · exact h.writable s hs
      · rcases List.mem_cons.mp hmore with heq | hmore
        · cases heq
          exact List.cons_ne_nil c run
        · exact h.nonempty more hmore
      · cases front with
        | nil => exact hrest second back (List.cons.inj hsegs).2
        | cons s front => exact h.separated front first second back (List.cons.inj hsegs).2

end InNormalForm

theorem mergeRuns_of_normal {segs : List Segment} (h : InNormalForm segs) : mergeRuns segs = segs := by
  induction segs with
  | nil => rfl
  | cons segment rest ih =>
      cases segment with
      | marker index => rw [mergeRuns, ih h.tail]
      | text run =>
          have hrun : run.isEmpty = false := by simpa using h.nonempty run List.mem_cons_self
          rw [mergeRuns, ih h.tail]
          cases rest with
          | nil =>
              rw [mergeRun, consRun, hrun]
              · rfl
              · simp
          | cons next rest =>
              cases next with
              | text more => exact absurd rfl (h.separated [] run more rest)
              | marker index =>
                  rw [mergeRun, consRun, hrun]
                  · rfl
                  · simp

/-- Reading undoes writing, segment for segment. -/
theorem segments_writeSegments_of_normal {segs : List Segment} (h : InNormalForm segs) :
    segments (writeSegments segs) = .ok segs := by
  rw [segments_writeSegments h.writable, mergeRuns_of_normal h]

/-- Markers side by side, the greatest index, and text between markers. -/
theorem segments_writeSegments_of_normal_adjacent :
    let segs : List Segment :=
      [.marker 0, .marker 18446744073709551615, .text "a = é".toList, .marker 12]
    InNormalForm segs ∧ segments (writeSegments segs) = .ok segs := by
  intro segs
  have htext : InNormalForm (consRun "a = é".toList [.marker 12]) :=
    (InNormalForm.nil.marker (by decide)).consRun (by simp) (by decide)
  have hnormal : InNormalForm segs := (htext.marker (by decide)).marker (by decide)
  exact ⟨hnormal, segments_writeSegments_of_normal hnormal⟩

theorem ReadAs.normal {text : List Char} {segs : List Segment} (h : ReadAs text segs) :
    InNormalForm segs := by
  induction h with
  | run hrun => exact InNormalForm.nil.consRun (by simp) hrun
  | marker hrun hindex _ ih =>
      obtain ⟨hbody, rfl⟩ := markerIndex?_eq_some_iff.mp hindex
      exact (ih.marker hbody.bounded).consRun (by simp) hrun

/-! ### Writing what was read -/

theorem writeSegments_consRun (run : List Char) (segs : List Segment) :
    writeSegments (consRun run segs) = run ++ writeSegments segs := by
  cases run with
  | nil => rfl
  | cons c run => rfl

theorem beq_open_of_not_reserved {c : Char} (h : isReserved c = false) :
    (c == markerOpen) = false := by
  rw [beq_eq_false_iff_ne]
  rintro rfl
  exact absurd h (by decide)

theorem dropLeadingZeros_clean {run : List Char} (h : Clean run) (text : List Char) :
    dropLeadingZeros false (run ++ text) = run ++ dropLeadingZeros false text := by
  induction run with
  | nil => rfl
  | cons c run ih =>
      have hc := beq_open_of_not_reserved (h c List.mem_cons_self)
      rw [List.cons_append, dropLeadingZeros, Bool.false_and, Bool.false_and,
        if_neg Bool.false_ne_true, hc, ih fun d hd => h d (List.mem_cons_of_mem c hd)]
      rfl

/-- The digits of a body become those of its value. -/
theorem dropLeadingZeros_body {body : List Char} (hne : body ≠ [])
    (h : ∀ c ∈ body, c.isDigit = true) (text : List Char) :
    dropLeadingZeros true (body ++ markerClose :: text) =
      Nat.toDigits 10 (Nat.ofDigitChars 10 body 0) ++ markerClose :: dropLeadingZeros false text := by
  have hend : dropLeadingZeros false (markerClose :: text) =
      markerClose :: dropLeadingZeros false text := rfl
  induction body with
  | nil => contradiction
  | cons c rest ih =>
      have hrest : ∀ d ∈ rest, d.isDigit = true := fun d hd => h d (List.mem_cons_of_mem c hd)
      have hclean : Clean rest := fun d hd => isReserved_of_isDigit (hrest d hd)
      have hc := beq_open_of_not_reserved (isReserved_of_isDigit (h c List.mem_cons_self))
      rw [List.cons_append, dropLeadingZeros, Bool.true_and]
      by_cases hzero : c = '0'
      · subst hzero
        cases rest with
        | nil => exact congrArg ('0' :: ·) hend
        | cons d rest =>
            have hd : d ≠ markerClose := by
              rintro rfl
              exact absurd (hclean _ List.mem_cons_self) (by decide)
            rw [if_pos (by simp [hd]), ih (List.cons_ne_nil d rest) hrest]
            rfl
      · rw [if_neg (by simp [hzero]), hc, dropLeadingZeros_clean hclean, hend,
          toDigits_of_head_ne_zero h hzero]
        rfl

theorem ReadAs.writeSegments_eq {text : List Char} {segs : List Segment} (h : ReadAs text segs) :
    writeSegments segs = dropLeadingZeros false text := by
  induction h with
  | @run run hrun =>
      have hdrop := dropLeadingZeros_clean hrun []
      rw [List.append_nil] at hdrop
      rw [writeSegments_consRun, hdrop]
      rfl
  | @marker run body index text segs hrun hindex _ ih =>
      obtain ⟨hbody, rfl⟩ := markerIndex?_eq_some_iff.mp hindex
      have hopen (more : List Char) : dropLeadingZeros false (markerOpen :: more) =
          markerOpen :: dropLeadingZeros true more := rfl
      rw [writeSegments_consRun, writeSegments, toList_encodeMarker, ih,
        dropLeadingZeros_clean hrun, hopen, dropLeadingZeros_body hbody.nonempty hbody.digits,
        Nat.toString_eq_ofList_toDigits, String.toList_ofList, List.cons_append, List.append_assoc,
        List.singleton_append]

/-! ### What reading says about a text -/

/-- The message of a marker error tells the fault and its place. -/
theorem MarkerError.message_injective {e e' : MarkerError} (h : e.message = e'.message) : e = e' := by
  obtain ⟨fault, offset⟩ := e
  obtain ⟨fault', offset'⟩ := e'
  -- the three messages begin with different letters
  have hhead := congrArg (·.toList.head?) h
  obtain rfl : fault = fault' := by
    cases fault <;> cases fault' <;> first | rfl | simp [message, toString] at hhead
  have hoffset : offset.repr = offset'.repr := by simpa [message] using h
  rw [toString_injective hoffset]

/-- Reading marked text is exact. It accepts the texts of the grammar. What it returns is in normal
form, and writing it gives the text without the leading zeros of its indices. What it reports about
any other text is the first reserved character at which a rule is broken, behind a text that would
be accepted: which rule, and how many bytes are in front; and the message tells both. -/
theorem segments_exact (text : List Char) :
    ((∃ segs, segments text = .ok segs) ↔ Marked text) ∧
    (∀ segs, segments text = .ok segs →
      InNormalForm segs ∧ writeSegments segs = dropLeadingZeros false text) ∧
    (∀ fault offset, segments text = .error ⟨fault, offset⟩ ↔
      ∃ before c rest, text = before ++ c :: rest ∧ isReserved c = true ∧
        Text.byteLength before = offset ∧ Marked before ∧ fault.BreaksAt c rest) ∧
    ∀ e e' : MarkerError, e.message = e'.message → e = e' :=
  ⟨exists_segments_eq_ok_iff text,
    fun _ hsegs => ⟨(readAs_of_segments hsegs).normal, (readAs_of_segments hsegs).writeSegments_eq⟩,
    segments_eq_error_iff text, fun _ _ => MarkerError.message_injective⟩

/-- The offset counts bytes from the beginning of the text, also behind a marker. -/
example : segments ("é".toList ++ (encodeMarker 7).toList ++ markerOpen :: "+1".toList ++
    [markerClose]) = .error ⟨.malformed, 9⟩ := by
  rfl

end QueryTemplate
