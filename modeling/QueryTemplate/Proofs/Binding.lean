import QueryTemplate.Proofs.Emission
import QueryTemplate.Proofs.Formatting

/-!
Emission and formatting together. The texts that emission returns can be put together in any way,
each of them used as often as one likes, with other text between them. Formatting binds the values
that were captured for the texts that are used, in the order in which they are used.
-/

namespace QueryTemplate

namespace Emission

/-- The segments of consecutive markers with commas between them. -/
def listSegments (start : Nat) : Nat → List Segment
  | 0 => []
  | 1 => [.marker start]
  | count + 2 => .marker start :: .text [',', ' '] :: listSegments (start + 1) (count + 1)

/-- The segments that emission writes. -/
def segments (start : Nat) (v : Value) : List Segment :=
  match v with
  | .params items => .text ['('] :: (listSegments start items.length ++ [.text [')']])
  | .safe text => [.text text.toList]
  | _ => [.marker start]

theorem writeSegments_listSegments (start count : Nat) :
    writeSegments (listSegments start count) =
      (String.intercalate ", " (markers start count)).toList := by
  induction start, count using listSegments.induct with
  | case1 start => rfl
  | case2 start => simp [listSegments, writeSegments, markers]
  | case3 start count ih =>
      have hmarkers : String.intercalate ", " (markers start (count + 2)) =
          encodeMarker start ++ ", " ++
            String.intercalate ", " (markers (start + 1) (count + 1)) := by
        rw [markers_succ start, markers_succ (start + 1), String.intercalate_cons_cons]
      rw [listSegments, writeSegments, writeSegments, ih, hmarkers, String.toList_append,
        String.toList_append, List.append_assoc]
      rfl

theorem markerIndices_listSegments (start count : Nat) :
    markerIndices (listSegments start count) = List.range' start count := by
  induction start, count using listSegments.induct with
  | case1 start => rfl
  | case2 start => rfl
  | case3 start count ih =>
      rw [listSegments, markerIndices, markerIndices, ih]
      rfl

theorem writable_listSegments {start count : Nat} (h : start + count ≤ indexLimit) :
    ∀ segment ∈ listSegments start count, segment.Writable := by
  induction start, count using listSegments.induct with
  | case1 start => simp [listSegments]
  | case2 start =>
      intro segment hsegment
      rw [List.mem_singleton.mp hsegment]
      exact h
  | case3 start count ih =>
      intro segment hsegment
      rcases List.mem_cons.mp hsegment with rfl | hsegment
      · exact Nat.lt_of_lt_of_le (by omega) h
      · rcases List.mem_cons.mp hsegment with rfl | hsegment
        · exact show Clean [',', ' '] by decide
        · exact ih (by omega) segment hsegment

theorem writeSegments_segments (start : Nat) (v : Value) :
    writeSegments (segments start v) = (written start v).toList := by
  cases v with
  | params items =>
      rw [segments, writeSegments, writeSegments_append, writeSegments_listSegments]
      simp [written, writeSegments]
  | safe text => simp [segments, written, writeSegments]
  | _ => exact List.append_nil _

theorem markerIndices_segments (start : Nat) (v : Value) (hint : Option String) :
    markerIndices (segments start v) = List.range' start (bound v hint).length := by
  cases v with
  | params items =>
      rw [segments, markerIndices, markerIndices_append, markerIndices_listSegments, bound,
        length_numbered]
      exact List.append_nil _
  | _ => rfl

theorem writable_segments {start : Nat} {v : Value} {hint : Option String}
    (hraw : ∀ text, v = .safe text → hasReserved text = false)
    (h : start + (bound v hint).length ≤ indexLimit) :
    ∀ segment ∈ segments start v, segment.Writable := by
  cases v with
  | params items =>
      rw [bound, length_numbered] at h
      intro segment hsegment
      rcases List.mem_cons.mp hsegment with rfl | hsegment
      · exact show Clean ['('] by decide
      · rcases List.mem_append.mp hsegment with hsegment | hsegment
        · exact writable_listSegments h segment hsegment
        · rw [List.mem_singleton.mp hsegment]
          exact show Clean [')'] by decide
  | safe text =>
      intro segment hsegment
      rw [List.mem_singleton.mp hsegment]
      exact clean_iff.mpr (hraw text rfl)
  | _ =>
      intro segment hsegment
      rw [List.mem_singleton.mp hsegment]
      exact h

end Emission

theorem map_getElem?_range' {α : Type*} (before captured after : List α) :
    (List.range' before.length captured.length).map ((before ++ captured ++ after)[·]?) =
      captured.map some := by
  induction captured generalizing before with
  | nil => rfl
  | cons v captured ih =>
      -- the first of the captured values goes to those before
      have hrest := ih (before ++ [v])
      rw [List.length_append, List.length_singleton, List.append_assoc before,
        List.singleton_append] at hrest
      rw [List.length_cons, List.range'_succ, List.map_cons, List.map_cons, hrest]
      simp

namespace Piece

/-- The piece is written with the segments, and the values captured for it are those of their
markers. -/
structure WrittenAs (captures : CaptureList) (piece : Piece) (segs : List Segment) : Prop where
  writable : ∀ segment ∈ segs, segment.Writable
  text : piece.text.toList = writeSegments segs
  values : (markerIndices segs).map (captures.values[·]?) = piece.captured.map some

/-- The piece is other text, or one that was emitted. -/
def Usable (emitted : List (Option Piece)) (piece : Piece) : Prop :=
  (hasReserved piece.text = false ∧ piece.captured = []) ∨ some piece ∈ emitted

end Piece

namespace PassState

variable {ω : Type}

theorem isSuspended_emit {s : PassState ω} (h : s.isSuspended = false) (v : Value)
    (hint : Option String) : (s.emit v hint).2.isSuspended = false := by
  rw [emit_eq h]
  split
  · exact h
  · exact h

theorem isPrefix_emit {s : PassState ω} (h : s.isSuspended = false) (v : Value)
    (hint : Option String) : s.captures.values <+: (s.emit v hint).2.captures.values := by
  rw [emit_eq h, Emission.write]
  cases v.isUndefined with
  | true => exact List.prefix_rfl
  | false =>
      refine ⟨(Emission.bound v hint).map (·.2), ?_⟩
      exact (s.captures.values_extend _).symm

theorem isPrefix_emitAll {s : PassState ω} (h : s.isSuspended = false)
    (calls : List (Value × Option String)) :
    s.captures.values <+: (emitAll calls s).2.captures.values := by
  induction calls generalizing s with
  | nil => exact List.prefix_rfl
  | cons call calls ih =>
      obtain ⟨v, hint⟩ := call
      exact (isPrefix_emit h v hint).trans (ih (isSuspended_emit h v hint))

/-- What one emission returns is written with segments for the values it captures. -/
theorem writtenAs_of_emit {s : PassState ω} (h : s.isSuspended = false) {v : Value}
    {hint : Option String} (hraw : ∀ text, v = .safe text → hasReserved text = false)
    {text : String} (htext : (s.emit v hint).1 = some text) {captures : CaptureList}
    (hcaptures : (s.emit v hint).2.captures.values <+: captures.values)
    (hlength : captures.length ≤ indexLimit) :
    Piece.WrittenAs captures
      ⟨text, (s.emit v hint).2.captures.values.drop s.captures.length⟩
      (Emission.segments s.captures.length v) := by
  rw [emit_eq h, Emission.write] at htext hcaptures ⊢
  cases hv : v.isUndefined with
  | true =>
      rw [hv] at htext
      contradiction
  | false =>
      simp only [hv, Bool.false_eq_true, if_false] at htext hcaptures ⊢
      cases htext
      -- what is captured later comes after the values of this emission
      obtain ⟨after, hafter⟩ := hcaptures
      have hle : s.captures.length + (Emission.bound v hint).length ≤ captures.length := by
        rw [← captures.length_values, ← hafter, List.length_append, CaptureList.length_values,
          CaptureList.length_extend]
        omega
      refine ⟨Emission.writable_segments hraw (Nat.le_trans hle hlength),
        (Emission.writeSegments_segments _ v).symm, ?_⟩
      have hvalues := map_getElem?_range' s.captures.values ((Emission.bound v hint).map (·.2))
        after
      rw [CaptureList.length_values, List.length_map] at hvalues
      rw [Emission.markerIndices_segments _ v hint, ← hafter, CaptureList.values_extend, hvalues,
        ← s.captures.length_values, List.drop_left]

/-- Every piece that was emitted is written with segments for its values, whatever was emitted
later. -/
theorem exists_writtenAs_of_emitAll {calls : List (Value × Option String)}
    (hraw : ∀ call ∈ calls, ∀ text, call.1 = .safe text → hasReserved text = false)
    {s : PassState ω} (h : s.isSuspended = false)
    (hlength : (emitAll calls s).2.captures.length ≤ indexLimit) {piece : Piece}
    (hpiece : some piece ∈ (emitAll calls s).1) :
    ∃ segs, piece.WrittenAs (emitAll calls s).2.captures segs := by
  induction calls generalizing s with
  | nil => contradiction
  | cons call calls ih =>
      obtain ⟨v, hint⟩ := call
      rcases List.mem_cons.mp hpiece with hhead | htail
      · obtain ⟨text, htext, rfl⟩ := Option.map_eq_some_iff.mp hhead.symm
        exact ⟨_, writtenAs_of_emit h (hraw (v, hint) List.mem_cons_self) htext
          (isPrefix_emitAll (isSuspended_emit h v hint) calls) hlength⟩
      · exact ih (fun call hcall => hraw call (List.mem_cons_of_mem _ hcall))
          (isSuspended_emit h v hint) hlength htail

end PassState

namespace Piece

variable {captures : CaptureList} {emitted : List (Option Piece)}

theorem exists_writtenAs_of_usable
    (h : ∀ piece, some piece ∈ emitted → ∃ segs, piece.WrittenAs captures segs) {piece : Piece}
    (hpiece : piece.Usable emitted) : ∃ segs, piece.WrittenAs captures segs := by
  rcases hpiece with ⟨htext, hcaptured⟩ | hmem
  · refine ⟨[.text piece.text.toList], fun segment hsegment => ?_, ?_, ?_⟩
    · rw [List.mem_singleton.mp hsegment]
      exact clean_iff.mpr htext
    · exact (List.append_nil _).symm
    · rw [hcaptured]
      rfl
  · exact h piece hmem

/-- Pieces put together are written with their segments put together. -/
theorem exists_writtenAs_join {pieces : List Piece}
    (h : ∀ piece ∈ pieces, ∃ segs, piece.WrittenAs captures segs) :
    ∃ segs, WrittenAs captures ⟨String.join (pieces.map text), pieces.flatMap captured⟩ segs := by
  induction pieces with
  | nil => exact ⟨[], by simp, rfl, rfl⟩
  | cons piece pieces ih =>
      obtain ⟨segs, hsegs⟩ := h piece List.mem_cons_self
      obtain ⟨more, hmore⟩ := ih fun p hp => h p (List.mem_cons_of_mem piece hp)
      refine ⟨segs ++ more, fun segment hsegment => ?_, ?_, ?_⟩
      · exact (List.mem_append.mp hsegment).elim (hsegs.writable segment) (hmore.writable segment)
      · rw [List.map_cons, String.join_cons, String.toList_append, hsegs.text, hmore.text,
          writeSegments_append]
      · rw [markerIndices_append, List.map_append, hsegs.values, hmore.values, List.flatMap_cons,
          List.map_append]

end Piece

/-- Text put together from what was emitted and from other text is formatted, in every style: the
values captured for the pieces are bound in their order, each marker of the text is replaced by the
placeholder of its value, and every other character stays. Positions are 64-bit numbers, so no more
values than that are captured. -/
theorem formatQuery_emitted {ω : Type} {calls : List (Value × Option String)}
    (hraw : ∀ call ∈ calls, ∀ text, call.1 = .safe text → hasReserved text = false)
    (outputs : CallLog) (world : ω) {emitted : List (Option Piece)} {s : PassState ω}
    (hemit : PassState.emitAll calls { outputs, world } = (emitted, s))
    (hlength : s.captures.length ≤ indexLimit) {pieces : List Piece}
    (hpieces : ∀ piece ∈ pieces, piece.Usable emitted) (style : ParamStyle) :
    ∃ query keys, formatQuery (String.join (pieces.map Piece.text)) s.captures style = .ok query ∧
      query.params.values = pieces.flatMap Piece.captured ∧
      query.params = style.params (keys.zip (pieces.flatMap Piece.captured)) ∧
      query.query = String.ofList (fillMarkers false (String.join (pieces.map Piece.text)).toList
        (placeholders style 0 keys)) ∧
      keys.length = (pieces.flatMap Piece.captured).length ∧
      (String.join (pieces.map Piece.text)).toList.count markerOpen = keys.length := by
  have hwritten : ∀ piece, some piece ∈ emitted → ∃ segs, piece.WrittenAs s.captures segs := by
    intro piece hpiece
    have h := PassState.exists_writtenAs_of_emitAll hraw (s := { outputs, world }) rfl
    rw [hemit] at h
    exact h hlength hpiece
  obtain ⟨segs, hsegs⟩ := Piece.exists_writtenAs_join fun piece hpiece =>
    Piece.exists_writtenAs_of_usable hwritten (hpieces piece hpiece)
  obtain ⟨keys, hkeys, hformat⟩ := formatQuery_of_writeSegments hsegs.writable hsegs.values
    hsegs.text style
  refine ⟨_, keys, hformat, ?_, rfl, rfl, hkeys, ?_⟩
  · rw [ParamStyle.values_params]
    exact List.map_snd_zip (Nat.le_of_eq hkeys.symm)
  · have hcount := congrArg List.length hsegs.values
    rw [List.length_map, List.length_map] at hcount
    rw [show (String.join _).toList = _ from hsegs.text, count_markerOpen hsegs.writable, hcount,
      hkeys]

theorem formatQuery_emitted_twice :
    let run := PassState.emitAll [(.str "x", some "name"), (.params [.int 1, .int 2], none)]
      { world := () }
    let name : Piece := ⟨encodeMarker 0, [.str "x"]⟩
    let list : Piece :=
      ⟨"(" ++ String.intercalate ", " [encodeMarker 1, encodeMarker 2] ++ ")", [.int 1, .int 2]⟩
    let pieces := [list, ⟨" and ", []⟩, name, name]
    run.1 = [some name, some list] ∧
    ∃ query keys,
      formatQuery (String.join (pieces.map Piece.text)) run.2.captures .named = .ok query ∧
      query.params.values = [.int 1, .int 2, .str "x", .str "x"] ∧
      query.params = ParamStyle.params .named (keys.zip [.int 1, .int 2, .str "x", .str "x"]) ∧
      query.query = String.ofList (fillMarkers false (String.join (pieces.map Piece.text)).toList
        (placeholders .named 0 keys)) ∧
      keys.length = 4 ∧
      (String.join (pieces.map Piece.text)).toList.count markerOpen = keys.length := by
  intro run name list pieces
  have hpieces : ∀ piece ∈ pieces, piece.Usable [some name, some list] := by
    intro piece hpiece
    simp only [pieces, List.mem_cons, List.not_mem_nil, or_false] at hpiece
    rcases hpiece with rfl | rfl | rfl | rfl
    · exact .inr (List.mem_cons_of_mem _ List.mem_cons_self)
    · exact .inl ⟨by decide, rfl⟩
    · exact .inr List.mem_cons_self
    · exact .inr List.mem_cons_self
  exact ⟨rfl, formatQuery_emitted (by simp) [] () rfl (by decide) hpieces .named⟩

end QueryTemplate
