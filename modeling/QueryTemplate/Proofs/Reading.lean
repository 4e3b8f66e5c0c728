import QueryTemplate.Proofs.Viewing
import QueryTemplate.Template.Run

/-!
The parts of an evaluation that only read the state: finding variables, looking into values, the
filters and tests of the template language, and operators. There is an instance for each, so that the
proofs name only the places where they branch.
-/

namespace QueryTemplate.Template

variable {E : Bounds} {I : Store → Prop} {α : Type}

namespace Eval

/-! ### What is no part of the view -/

instance keeps_isDiscarding : Keeps E I (isDiscarding) := by
  unfold isDiscarding
  refine .next fun s => ?_
  split <;> infer_instance

instance keeps_depth : Keeps E I (depth) := by
  unfold depth
  infer_instance

instance keeps_checkDepth : Keeps E I (checkDepth) := by
  unfold checkDepth
  infer_instance

instance keeps_runsBlocks : Keeps E I (runsBlocks) := by
  unfold runsBlocks
  infer_instance

/-! ### Variables -/

instance reads_loopState? (id : Nat) : Reads E (loopState? id) := by
  unfold loopState?
  exact .view (fun s => s.loops[id]?) fun hst => by rw [hst.loops]

instance reads_currentLoop? : Reads E (currentLoop?) := by
  unfold currentLoop?
  refine .get_bind (fun s => ?_) fun hst => by rw [hst.frames, hst.loops]
  split <;> infer_instance

instance reads_loadRoot (name : String) : Reads E (loadRoot name) := by
  unfold loadRoot
  infer_instance

instance reads_loadBase (name : String) (base : FrameBase) : Reads E (loadBase name base) := by
  unfold loadBase
  split
  case h_3 id =>
    exact .view (fun s => s.closures[id]?.bind fun c => c.values.lookup name) fun hst => by
      rw [hst.closures]
  all_goals infer_instance

instance reads_loadFrom (name : String) (frames : List Frame) :
    Reads E (loadFrom name frames) := by
  induction frames with
  | nil => exact .pure _
  | cons f rest ih =>
      unfold loadFrom
      split
      · infer_instance
      · dsimp only
        repeat' split
        all_goals
          refine .next fun found => ?_
          split <;> infer_instance

instance reads_load (name : String) : Reads E (load name) := by
  unfold load
  refine .get_bind (fun s => .next fun found => ?_) fun hst => by rw [hst.frames]
  split <;> infer_instance

instance reads_placeOf? (env : Environment) (e : Expr) : Reads E (placeOf? env e) := by
  unfold placeOf?
  refine .view (fun s => e.place? fun name => placeFrom? env s.closures name s.frames) fun hst => ?_
  rw [hst.closures, hst.frames]

/-! ### Looking into values -/

instance reads_demand (env : Environment) (v : Value) : Reads E (demand env v) := by
  unfold demand
  split <;> infer_instance

instance reads_recordEntries (id : Nat) : Reads E (recordEntries id) := by
  unfold recordEntries
  exact .view (fun s => (s.records[id]?).getD []) fun hst => by rw [hst.records]

instance reads_keys? (env : Environment) (v : Value) : Reads E (keys? env v) := by
  unfold keys?
  split <;> infer_instance

instance reads_isTrue (env : Environment) (v : Value) : Reads E (isTrue env v) := by
  unfold isTrue
  refine .next fun keys? => ?_
  split <;> infer_instance

instance reads_truth (env : Environment) (v : Value) : Reads E (truth env v) := by
  unfold truth
  infer_instance

instance reads_items? (env : Environment) (v : Value) : Reads E (items? env v) := by
  unfold items?
  repeat' split
  all_goals infer_instance

instance reads_iterate (env : Environment) (v : Value) : Reads E (iterate env v) := by
  unfold iterate
  refine .next fun _ => ?_
  refine .next fun items? => ?_
  split <;> infer_instance

instance reads_member? (v key : Value) : Reads E (member? v key) := by
  have hroutine (id : Nat) (name : String) :
      Reads E (do return ((← get).routines[id]?).bind (·.attribute? name) : Eval (Option Value)) :=
    .view (fun s => (s.routines[id]?).bind (·.attribute? name)) fun hst => by rw [hst.routines]
  unfold member?
  repeat' split
  all_goals infer_instance

instance reads_pairs? (env : Environment) (v : Value) : Reads E (pairs? env v) := by
  unfold pairs?
  refine .next fun keys? => ?_
  split <;> infer_instance

instance reads_attribute? (v : Value) (name : String) : Reads E (attribute? v name) := by
  unfold attribute?
  split <;> infer_instance

instance reads_attributeOf (v : Value) (name : String) : Reads E (attributeOf v name) := by
  unfold attributeOf
  infer_instance

instance reads_element? (v key : Value) : Reads E (element? v key) := by
  unfold element?
  repeat' split
  all_goals infer_instance

instance reads_elementOf (v key : Value) : Reads E (elementOf v key) := by
  unfold elementOf
  infer_instance

instance reads_follow? (v : Value) (path : List Value) : Reads E (follow? v path) := by
  induction path generalizing v with
  | nil => exact .pure _
  | cons key rest ih =>
      unfold follow?
      infer_instance

instance reads_follow (v : Value) (path : List Value) : Reads E (follow v path) := by
  unfold follow
  refine .next fun found => ?_
  split <;> infer_instance

instance reads_expand (env : Environment) (levels : Nat) (v : Value) :
    Reads E (expand env levels v) := by
  induction levels generalizing v with
  | zero => exact .pure _
  | succ levels ih =>
      unfold expand
      split
      case h_9 ref =>
        refine .next fun pairs? => ?_
        split
        · infer_instance
        · refine .next fun entries => ?_
          split <;> infer_instance
      all_goals infer_instance

instance reads_snapshot (env : Environment) (v : Value) : Reads E (snapshot env v) := by
  unfold snapshot
  infer_instance

instance reads_textOf (env : Environment) (v : Value) : Reads E (textOf env v) := by
  unfold textOf
  infer_instance

instance reads_contains (env : Environment) (container v : Value) :
    Reads E (contains env container v) := by
  unfold contains
  repeat' split
  all_goals infer_instance

end Eval

/-! ### Arguments -/

namespace CallArgs

open Eval (Reads)

instance reads_upTo (args : CallArgs) (n : Nat) : Reads E (args.upTo n) := by
  unfold upTo
  infer_instance

instance reads_onlyNamed (args : CallArgs) (names : List String) :
    Reads E (args.onlyNamed names) := by
  unfold onlyNamed
  infer_instance

instance reads_positionalUpTo (args : CallArgs) (n : Nat) : Reads E (args.positionalUpTo n) := by
  unfold positionalUpTo
  infer_instance

instance reads_byPositionOrName (args : CallArgs) (names : List String) :
    Reads E (args.byPositionOrName names) := by
  unfold byPositionOrName
  infer_instance

end CallArgs

namespace Argument

open Eval (Reads)

instance reads_required (given : Option Value) : Reads E (required given) := by
  unfold required
  split <;> infer_instance

instance reads_optional {read : Value → Eval α} [∀ v, Reads E (read v)] (given : Option Value) :
    Reads E (optional read given) := by
  unfold optional
  split <;> infer_instance

instance reads_text (env : Environment) (v : Value) : Reads E (text env v) := by
  unfold text
  infer_instance

instance reads_textAt (env : Environment) (args : CallArgs) (i : Nat) :
    Reads E (textAt env args i) := by
  unfold textAt
  split <;> infer_instance

instance reads_textAt? (env : Environment) (args : CallArgs) (i : Nat) :
    Reads E (textAt? env args i) := by
  unfold textAt?
  split <;> infer_instance

instance reads_mismatch (v : Value) (wanted : String) : Reads E (mismatch (α := α) v wanted) := by
  unfold mismatch
  infer_instance

instance reads_string (v : Value) : Reads E (string v) := by
  unfold string
  split <;> infer_instance

instance reads_flag (v : Value) : Reads E (flag v) := by
  unfold flag
  split <;> infer_instance

instance reads_integer (v : Value) : Reads E (integer v) := by
  unfold integer
  split <;> infer_instance

instance reads_count (v : Value) : Reads E (count v) := by
  unfold count
  split <;> infer_instance

instance reads_isOn (given : Option Value) : Reads E (isOn given) := by
  unfold isOn
  infer_instance

end Argument

/-! ### Filters on text -/

namespace FormatFilter

open Eval (Reads)

instance reads_failed (detail : String) : Reads E (failed (α := α) detail) := by
  unfold failed
  infer_instance

instance reads_integerOf (v : Value) : Reads E (integerOf v) := by
  unfold integerOf
  split <;> infer_instance

instance reads_wholeOf (v : Value) : Reads E (wholeOf v) := by
  unfold wholeOf
  split <;> infer_instance

instance reads_floatOf (v : Value) : Reads E (floatOf v) := by
  unfold floatOf
  split <;> infer_instance

instance reads_charText (v : Value) : Reads E (charText v) := by
  unfold charText
  split <;> infer_instance

instance reads_written (env : Environment) (d : Directive) (width : Nat) (precision : Option Nat)
    (v : Value) :
    Reads E (written env d width precision v) := by
  unfold written
  dsimp only
  split <;> infer_instance

instance reads_next (given : List Value) : Reads E (next given) := by
  unfold next
  split <;> infer_instance

instance reads_sizeOf (size : Size) (given : List Value) : Reads E (sizeOf size given) := by
  unfold sizeOf
  split <;> infer_instance

instance reads_fill (env : Environment) (args : CallArgs) (parts : List Part) (given : List Value) :
    Reads E (fill env args parts given) := by
  induction parts generalizing given with
  | nil =>
      unfold fill
      infer_instance
  | cons part rest ih =>
      cases part with
      | text run =>
          unfold fill
          infer_instance
      | directive d =>
          unfold fill
          refine .next fun width => .next fun precision => ?_
          dsimp only
          split
          · infer_instance
          · split
            · infer_instance
            · split <;> infer_instance

instance reads_format (env : Environment) (v : Value) (args : CallArgs) :
    Reads E (format env v args) := by
  unfold format
  refine .next fun text => ?_
  dsimp only
  split
  · refine .next fun _ => ?_
    split <;> infer_instance
  · split <;> infer_instance

end FormatFilter

namespace TextFilter

open Eval (Reads)

instance reads_changing (f : List Char → List Char) (env : Environment) (v : Value)
    (args : CallArgs) :
    Reads E (changing f env v args) := by
  unfold changing
  infer_instance

instance reads_escapedText (env : Environment) (v : Value) : Reads E (escapedText env v) := by
  unfold escapedText
  refine .next fun text => .get_bind (fun s => ?_) fun hst => by rw [hst.escaping]
  split <;> infer_instance

instance reads_escape (env : Environment) (v : Value) (args : CallArgs) :
    Reads E (escape env v args) := by
  unfold escape
  infer_instance

instance reads_title (env : Environment) (v : Value) (args : CallArgs) :
    Reads E (title env v args) := by
  unfold title
  infer_instance

instance reads_replace (env : Environment) (v : Value) (args : CallArgs) :
    Reads E (replace env v args) := by
  unfold replace
  refine .next fun text => .next fun old => .next fun new => .next fun given => ?_
  exact .get_bind (fun s => inferInstance) fun hst => by rw [hst.escaping]

instance reads_trim (env : Environment) (v : Value) (args : CallArgs) :
    Reads E (trim env v args) := by
  unfold trim
  infer_instance

instance reads_string (env : Environment) (v : Value) (args : CallArgs) :
    Reads E (string env v args) := by
  unfold string
  infer_instance

instance reads_join (env : Environment) (v : Value) (args : CallArgs) :
    Reads E (join env v args) := by
  unfold join
  refine .next fun given => ?_
  refine .next fun joiner => ?_
  refine .next fun items? => ?_
  split
  · infer_instance
  · refine .next fun texts => ?_
    exact .get_bind (fun s => inferInstance) fun hst => by rw [hst.escaping]

instance reads_split (env : Environment) (v : Value) (args : CallArgs) :
    Reads E (split env v args) := by
  unfold split
  infer_instance

instance reads_lines (env : Environment) (v : Value) (args : CallArgs) :
    Reads E (lines env v args) := by
  unfold lines
  infer_instance

instance reads_indent (env : Environment) (v : Value) (args : CallArgs) :
    Reads E (indent env v args) := by
  unfold indent
  refine .next fun text => ?_
  refine .next fun given => ?_
  split <;> infer_instance

instance reads_prettyPrint (env : Environment) (v : Value) (args : CallArgs) :
    Reads E (prettyPrint env v args) := by
  unfold prettyPrint
  infer_instance

theorem reads_find? {name : String} {f : StockFilter} (h : find? name = some f) (env : Environment)
    (v : Value) (args : CallArgs) :
    Reads E (f env v args) := by
  unfold find? at h
  split at h <;> cases h <;> infer_instance

end TextFilter

/-! ### Filters on numbers -/

namespace NumberFilter

open Eval (Reads)

instance reads_abs (env : Environment) (v : Value) (args : CallArgs) :
    Reads E (abs env v args) := by
  unfold abs
  refine .next fun _ => ?_
  split <;> infer_instance

instance reads_placesOf (v : Value) : Reads E (placesOf v) := by
  unfold placesOf
  infer_instance

instance reads_round (env : Environment) (v : Value) (args : CallArgs) :
    Reads E (round env v args) := by
  unfold round
  refine .next fun places => ?_
  refine .next fun _ => ?_
  split <;> infer_instance

instance reads_int (env : Environment) (v : Value) (args : CallArgs) :
    Reads E (int env v args) := by
  unfold int
  refine .next fun _ => ?_
  refine .next fun _ => ?_
  repeat' split
  all_goals infer_instance

instance reads_float (env : Environment) (v : Value) (args : CallArgs) :
    Reads E (float env v args) := by
  unfold float
  refine .next fun _ => ?_
  refine .next fun _ => ?_
  repeat' split
  all_goals infer_instance

instance reads_bool (env : Environment) (v : Value) (args : CallArgs) :
    Reads E (bool env v args) := by
  unfold bool
  infer_instance

theorem reads_find? {name : String} {f : StockFilter} (h : find? name = some f) (env : Environment)
    (v : Value) (args : CallArgs) :
    Reads E (f env v args) := by
  unfold find? at h
  split at h <;> cases h <;> infer_instance

end NumberFilter

/-! ### Filters on lists -/

namespace ListFilter

open Eval (Reads)

instance reads_orElse (env : Environment) (v : Value) (args : CallArgs) :
    Reads E (orElse env v args) := by
  unfold orElse
  refine .next fun given => ?_
  split
  · dsimp only
    split
    · infer_instance
    · split <;> infer_instance
  · infer_instance

instance reads_noLength (v : Value) : Reads E (noLength v) := by
  unfold noLength
  infer_instance

instance reads_length (env : Environment) (v : Value) (args : CallArgs) :
    Reads E (length env v args) := by
  unfold length
  refine .next fun _ => ?_
  split
  · infer_instance
  · refine .next fun items? => ?_
    split <;> infer_instance

instance reads_pairsOf (env : Environment) (v : Value) : Reads E (pairsOf env v) := by
  unfold pairsOf
  refine .next fun pairs? => ?_
  split <;> infer_instance

instance reads_items (env : Environment) (v : Value) (args : CallArgs) :
    Reads E (items env v args) := by
  unfold items
  infer_instance

instance reads_dictSort (env : Environment) (v : Value) (args : CallArgs) :
    Reads E (dictSort env v args) := by
  unfold dictSort
  infer_instance

instance reads_reverse (env : Environment) (v : Value) (args : CallArgs) :
    Reads E (reverse env v args) := by
  unfold reverse
  refine .next fun _ => ?_
  split
  case h_5 =>
    split
    · infer_instance
    · infer_instance
    · refine .next fun items? => ?_
      split <;> infer_instance
  all_goals infer_instance

instance reads_noEnd (what : String) : Reads E (noEnd what) := by
  unfold noEnd
  infer_instance

instance reads_first (env : Environment) (v : Value) (args : CallArgs) :
    Reads E (first env v args) := by
  unfold first
  refine .next fun _ => ?_
  split
  case h_6 =>
    refine .next fun items? => ?_
    split <;> infer_instance
  all_goals infer_instance

instance reads_last (env : Environment) (v : Value) (args : CallArgs) :
    Reads E (last env v args) := by
  unfold last
  refine .next fun _ => ?_
  split <;> infer_instance

instance reads_listed (env : Environment) (v : Value) : Reads E (listed env v) := by
  unfold listed
  infer_instance

instance reads_extreme (pick : Value → List Value → Value) (env : Environment) (v : Value)
    (args : CallArgs) :
    Reads E (extreme pick env v args) := by
  unfold extreme
  refine .next fun _ => ?_
  refine .next fun items => ?_
  split <;> infer_instance

instance reads_sort (env : Environment) (v : Value) (args : CallArgs) :
    Reads E (sort env v args) := by
  unfold sort
  refine .next fun _ => .next fun items => .next fun caseSensitive => .next fun reverse => ?_
  refine .next fun path? => .next fun _ => ?_
  cases path? <;> infer_instance

instance reads_list (env : Environment) (v : Value) (args : CallArgs) :
    Reads E (list env v args) := by
  unfold list
  infer_instance

instance reads_partAt (path : List Value) (fallback v : Value) :
    Reads E (partAt path fallback v) := by
  unfold partAt
  refine .next fun part? => ?_
  split <;> infer_instance

instance reads_unique (env : Environment) (v : Value) (args : CallArgs) :
    Reads E (unique env v args) := by
  unfold unique
  refine .next fun _ => .next fun path? => ?_
  cases path? <;> infer_instance

instance reads_groupBy (env : Environment) (v : Value) (args : CallArgs) :
    Reads E (groupBy env v args) := by
  unfold groupBy
  refine .next fun given => .next fun path? => .next fun fallback => .next fun caseSensitive => ?_
  cases path? with
  | some path =>
      refine .next fun path => .next fun items? => ?_
      split <;> infer_instance
  | none =>
      refine .next fun given => .next fun path => .next fun items? => ?_
      split <;> infer_instance

instance reads_batch (env : Environment) (v : Value) (args : CallArgs) :
    Reads E (batch env v args) := by
  unfold batch
  infer_instance

instance reads_slice (env : Environment) (v : Value) (args : CallArgs) :
    Reads E (slice env v args) := by
  unfold slice
  infer_instance

instance reads_sum (env : Environment) (v : Value) (args : CallArgs) :
    Reads E (sum env v args) := by
  unfold sum
  infer_instance

instance reads_attr (env : Environment) (v : Value) (args : CallArgs) :
    Reads E (attr env v args) := by
  unfold attr
  infer_instance

instance reads_inTurn (env : Environment) (parts : List Value) : Reads E (inTurn env parts) := by
  induction parts with
  | nil => exact .pure _
  | cons v rest ih =>
      unfold inTurn
      split
      · infer_instance
      · refine .next fun items? => ?_
        split <;> infer_instance

instance reads_chain (env : Environment) (v : Value) (args : CallArgs) :
    Reads E (chain env v args) := by
  unfold chain
  infer_instance

instance reads_zip (env : Environment) (v : Value) (args : CallArgs) :
    Reads E (zip env v args) := by
  unfold zip
  refine .bind (.mapM (fun part => ?_) _) fun lists => inferInstance
  refine .next fun items? => ?_
  split <;> infer_instance

theorem reads_find? {name : String} {f : StockFilter} (h : find? name = some f) (env : Environment)
    (v : Value) (args : CallArgs) :
    Reads E (f env v args) := by
  unfold find? at h
  split at h <;> cases h <;> infer_instance

end ListFilter

/-! ### Tests -/

namespace Predicate

open Eval (Reads)

instance reads_onValue (p : Value → Bool) (env : Environment) (v : Value) (args : CallArgs) :
    Reads E (onValue p env v args) := by
  unfold onValue
  infer_instance

instance reads_onPair (p : Value → Value → Bool) (env : Environment) (v : Value) (args : CallArgs) :
    Reads E (onPair p env v args) := by
  unfold onPair
  infer_instance

instance reads_onString (p : List Char → Bool) (env : Environment) (v : Value) (args : CallArgs) :
    Reads E (onString p env v args) := by
  unfold onString
  infer_instance

instance reads_onTexts (p : List Char → List Char → Bool) (env : Environment) (v : Value)
    (args : CallArgs) :
    Reads E (onTexts p env v args) := by
  unfold onTexts
  infer_instance

instance reads_isIterable (env : Environment) (v : Value) (args : CallArgs) :
    Reads E (isIterable env v args) := by
  unfold isIterable
  infer_instance

instance reads_isInside (env : Environment) (v : Value) (args : CallArgs) :
    Reads E (isInside env v args) := by
  unfold isInside
  infer_instance

theorem reads_find? {name : String} {p : Predicate} (h : find? name = some p) (env : Environment)
    (v : Value) (args : CallArgs) :
    Reads E (p env v args) := by
  unfold find? at h
  split at h <;> cases h <;> infer_instance

end Predicate

namespace Eval

/-! ### Filters and tests by name -/

instance reads_failOutside {how : Outside} [hallows : E.Allows how] :
    Reads (α := α) E (failOutside how) :=
  .stop (hallows.outside _)

instance reads_emitFilter [E.Allows .notGiven] (env : Environment) (v : Value) (args : CallArgs) :
    Reads E (emitFilter env v args) := by
  unfold emitFilter
  refine .next fun given => ?_
  refine .next fun scope => ?_
  refine .next fun hint => ?_
  split <;> infer_instance

instance reads_callRegistered [E.Allows .unseen] (env : Environment) (name : String) (v : Value)
    (args : CallArgs) : Reads E (callRegistered env name v args) := by
  unfold callRegistered
  refine .next fun scope => ?_
  split <;> infer_instance

theorem reads_predicate? {env : Environment} {name : String} {p : Predicate}
    (h : predicate? env name = some p) (v : Value) (args : CallArgs) :
    Reads E (p env v args) := by
  unfold predicate? at h
  split at h
  · cases h
    infer_instance
  · cases h
    infer_instance
  · exact Predicate.reads_find? h env v args

instance reads_applyTest (env : Environment) (name : String) (v : Value) (args : CallArgs) :
    Reads E (applyTest env name v args) := by
  unfold applyTest
  split
  · exact reads_predicate? ‹_› v args
  · infer_instance

instance reads_select (env : Environment) (keep : Bool) (v : Value) (path : Option String)
    (test : Option Value)
    (args : List Value) :
    Reads E (select env keep v path test args) := by
  unfold select
  refine .next fun name => ?_
  cases path <;> cases name <;> infer_instance

instance reads_selectOn (env : Environment) (keep : Bool) (v : Value) (args : CallArgs) :
    Reads E (selectOn env keep v args) := by
  unfold selectOn
  split <;> infer_instance

instance reads_selectAt (env : Environment) (keep : Bool) (v : Value) (args : CallArgs) :
    Reads E (selectAt env keep v args) := by
  unfold selectAt
  infer_instance

instance reads_mapPath (env : Environment) (v path fallback : Value) :
    Reads E (mapPath env v path fallback) := by
  unfold mapPath
  refine .next fun items => .bind (.mapM (fun item => ?_) items) fun _ => .pure _
  refine .next fun part? => ?_
  split <;> infer_instance

instance reads_mappedName (env : Environment) (name : Value) : Reads E (mappedName env name) := by
  unfold mappedName
  split <;> infer_instance

theorem reads_stockFilter? {name : String} {f : StockFilter} (h : stockFilter? name = some f)
    (env : Environment)
    (v : Value) (args : CallArgs) :
    Reads E (f env v args) := by
  simp only [stockFilter?, Option.or_eq_some_iff] at h
  rcases h with (h | ⟨-, h⟩) | ⟨-, h⟩
  · exact TextFilter.reads_find? h env v args
  · exact NumberFilter.reads_find? h env v args
  · exact ListFilter.reads_find? h env v args

/-- The emit filter and registered filters are left open. -/
instance reads_applyFilter (env : Environment) [∀ v args, Reads E (emitFilter env v args)]
    [∀ name v args, Reads E (callRegistered env name v args)] (name : String) (v : Value)
    (named : Option (List (Value × Value))) (positional : List Value) :
    Reads E (applyFilter env name v named positional) := by
  fun_induction applyFilter env name v named positional
  case case3 h => exact reads_stockFilter? h ..
  all_goals infer_instance

/-- The same where these two do more than to read the state. -/
instance keeps_applyFilter (env : Environment) [∀ v args, Keeps E I (emitFilter env v args)]
    [∀ name v args, Keeps E I (callRegistered env name v args)] (name : String) (v : Value)
    (named : Option (List (Value × Value))) (positional : List Value) :
    Keeps E I (applyFilter env name v named positional) := by
  fun_induction applyFilter env name v named positional
  case case3 h =>
    have hreads := reads_stockFilter? (E := E) h
    infer_instance
  all_goals infer_instance

/-! ### Operators and arguments of calls -/

instance reads_operate (env : Environment) (op : Operator) (a b : Value) :
    Reads E (operate env op a b) := by
  unfold operate
  cases op <;> infer_instance

instance reads_compareStep (env : Environment) (step : Comparison) (a b : Value) :
    Reads E (compareStep env step a b) := by
  unfold compareStep
  infer_instance

instance reads_sliceOf (env : Environment) (v start stop step : Value) :
    Reads E (sliceOf env v start stop step) := by
  unfold sliceOf
  infer_instance

instance reads_spreadAll (env : Environment) (given : List (Bool × Value)) :
    Reads E (spreadAll env given) := by
  fun_induction spreadAll env given with
  | case1 => infer_instance
  | case2 v rest ih => infer_instance
  | case3 v rest ih =>
      refine .next fun items? => ?_
      split <;> infer_instance

instance reads_mergeNamed (env : Environment) (sorted : List (Value × Value))
    (parts : List NamedPart) :
    Reads E (mergeNamed env sorted parts) := by
  fun_induction mergeNamed env sorted parts with
  | case1 => infer_instance
  | case2 sorted name v rest ih => exact ih
  | case3 sorted v rest ih =>
      refine .next fun pairs? => ?_
      split
      · exact ih _
      · infer_instance

instance reads_gather (env : Environment) (positional : List (Bool × Value))
    (named : Option (List NamedPart)) :
    Reads E (gather env positional named) := by
  unfold gather
  cases named <;> infer_instance

instance reads_isOnePlace (env : Environment) (subject : Expr) (args : List Arg) :
    Reads E (isOnePlace env subject args) := by
  unfold isOnePlace
  split
  · refine .next fun p? => .next fun q? => ?_
    split <;> infer_instance
  · infer_instance

instance reads_tooManyArguments (detail : String) :
    Reads (α := α) E (tooManyArguments detail) := by
  unfold tooManyArguments
  infer_instance

instance reads_callRange (args : CallArgs) : Reads E (callRange args) := by
  unfold callRange
  infer_instance

instance reads_givenEntries (env : Environment) (given : Option Value) :
    Reads E (givenEntries env given) := by
  unfold givenEntries
  refine .next fun given? => ?_
  split
  · infer_instance
  · refine .next fun pairs? => ?_
    split <;> infer_instance

instance reads_callDict (env : Environment) (args : CallArgs) : Reads E (callDict env args) := by
  unfold callDict
  infer_instance

instance reads_callDebug (env : Environment) (args : CallArgs) :
    Reads E (callDebug env args) := by
  unfold callDebug
  refine .next fun values => ?_
  split <;> infer_instance

instance reads_objectItems? (env : Environment) (v : Value) : Reads E (objectItems? env v) := by
  unfold objectItems?
  split <;> infer_instance

instance reads_unpack (env : Environment) (v : Value) (n : Nat) : Reads E (unpack env v n) := by
  unfold unpack
  refine .next fun items? => ?_
  split <;> infer_instance

instance reads_escapingOf (v : Value) : Reads E (escapingOf v) := by
  unfold escapingOf
  split <;> infer_instance

instance reads_exports : Reads E (exports) := by
  unfold exports
  refine .get_bind (fun s => ?_) fun hst => by rw [hst.frames]
  split <;> infer_instance

/-! ### Arguments of macros -/

instance reads_bindParams (named : List (Value × Value)) (params : List Param)
    (positional : List Value) : Reads E (bindParams named params positional) := by
  induction params generalizing positional with
  | nil =>
      unfold bindParams
      cases positional <;> infer_instance
  | cons p params ih =>
      unfold bindParams
      dsimp only
      split <;> infer_instance

instance reads_checkNamed (r : Routine) (named : List (Value × Value)) :
    Reads E (checkNamed r named) := by
  unfold checkNamed
  dsimp only
  infer_instance

end Eval

end QueryTemplate.Template
