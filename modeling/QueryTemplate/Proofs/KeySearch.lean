import Mathlib.Order.Bounds.Defs
import QueryTemplate.Proofs.KeyAllocation

/-!
The search for a free number. An allocator remembers for each base the last number it tried and goes
on from there. Whatever bases came before, all numbers up to the remembered one are taken, so the
search finds the number that a search from one would find, which is the least that is free.
-/

namespace QueryTemplate

namespace KeyAllocator

variable {taken : List String} {base : String}

/-- The search for a free key as a loop without a bound: from the last number tried, the next
numbers are tried in turn, and it ends at the first one whose key is free. -/
inductive Search (taken : List String) (base : String) : (tried found : Nat) → Prop where
  | free {n : Nat} (h : numbered base (n + 1) ∉ taken) : Search taken base n (n + 1)
  | next {n m : Nat} (h : numbered base (n + 1) ∈ taken) (hrest : Search taken base (n + 1) m) :
    Search taken base n m

namespace Search

theorem lt {n m : Nat} (h : Search taken base n m) : n < m := by
  induction h with
  | free _ => exact Nat.lt_succ_self _
  | next _ _ ih => exact Nat.lt_trans (Nat.lt_succ_self _) ih

theorem not_mem {n m : Nat} (h : Search taken base n m) : numbered base m ∉ taken := by
  induction h with
  | free h => exact h
  | next _ _ ih => exact ih

/-- All numbers that the search passes over are taken. -/
theorem mem_of_lt {n m k : Nat} (h : Search taken base n m) (hlow : n < k) (hhigh : k < m) :
    numbered base k ∈ taken := by
  induction h with
  | free _ => omega
  | @next n m h _ ih =>
      rcases Nat.lt_or_ge (n + 1) k with hk | hk
      · exact ih hk hhigh
      · obtain rfl : k = n + 1 := by omega
        exact h

theorem isLeast {m : Nat} (h : Search taken base 0 m) :
    IsLeast {k | 1 ≤ k ∧ numbered base k ∉ taken} m := by
  refine ⟨⟨h.lt, h.not_mem⟩, fun k hk => ?_⟩
  by_contra hlt
  exact hk.2 (h.mem_of_lt hk.1 (Nat.lt_of_not_le hlt))

/-- A search may begin earlier if everything in between is taken. -/
theorem of_le {i n m : Nat} (h : Search taken base n m) (hle : i ≤ n)
    (hbetween : ∀ k, i < k → k ≤ n → numbered base k ∈ taken) : Search taken base i m := by
  induction hle with
  | refl => exact h
  | @step n hle ih =>
      have hlast : numbered base (n + 1) ∈ taken :=
        hbetween (n + 1) (Nat.lt_succ_of_le hle) (Nat.le_refl _)
      exact ih (.next hlast h) fun k hlow hhigh => hbetween k hlow (Nat.le_succ_of_le hhigh)

/-- It only matters which keys are taken. -/
theorem congr {taken' : List String} {n m : Nat} (h : Search taken base n m)
    (hmem : ∀ key, key ∈ taken ↔ key ∈ taken') : Search taken' base n m := by
  induction h with
  | free h => exact .free fun hfree => h ((hmem _).mpr hfree)
  | next h _ ih => exact .next ((hmem _).mp h) ih

end Search

/-- A bounded search that ends at a free key is a search. -/
theorem search_nextFree {fuel n : Nat} (h : numbered base (nextFree taken base fuel n) ∉ taken) :
    Search taken base n (nextFree taken base fuel n) := by
  induction fuel generalizing n with
  | zero => exact .free h
  | succ fuel ih =>
      rw [nextFree] at h ⊢
      split at h
      · rename_i htaken
        rw [if_pos htaken]
        exact .next (List.contains_iff_mem.mp htaken) (ih h)
      · rename_i hfree
        rw [if_neg hfree]
        exact .free h

/-- The last number that was tried for a base. -/
def counter (keys : KeyAllocator) (base : String) : Nat :=
  (keys.counters.lookup base).getD 0

theorem allocate_of_not_mem {keys : KeyAllocator} (h : base ∉ keys.taken) :
    keys.allocate base = (base, { keys with taken := base :: keys.taken }) := by
  rw [allocate, if_neg fun hmem => h (List.contains_iff_mem.mp hmem)]

/-- For a base that is taken, the search from its counter comes to an end. -/
theorem exists_search_of_mem {keys : KeyAllocator} (h : base ∈ keys.taken) :
    ∃ n, Search keys.taken base (keys.counter base) n ∧
      keys.allocate base =
        (numbered base n, ⟨numbered base n :: keys.taken, (base, n) :: keys.counters⟩) := by
  refine ⟨_, search_nextFree (nextFree_not_mem keys.taken base (keys.counter base)), ?_⟩
  rw [allocate, if_pos (List.contains_iff_mem.mpr h)]
  rfl

/-- For every base, all numbers up to its counter are taken. -/
def Counted (keys : KeyAllocator) : Prop :=
  ∀ base k, 1 ≤ k → k ≤ keys.counter base → numbered base k ∈ keys.taken

theorem counted_empty : ({} : KeyAllocator).Counted := by
  intro base k hlow hhigh
  exact absurd (Nat.le_trans hlow hhigh) (Nat.not_succ_le_zero 0)

theorem Counted.search {keys : KeyAllocator} (h : keys.Counted) {n : Nat}
    (hn : Search keys.taken base (keys.counter base) n) : Search keys.taken base 0 n :=
  hn.of_le (Nat.zero_le _) (h base)

/-- Handing out a key keeps the numbers up to each counter taken: the search has passed over those
between the old and the new one, and other bases only add to what is taken. -/
theorem Counted.allocate {keys : KeyAllocator} (h : keys.Counted) (base : String) :
    (keys.allocate base).2.Counted := by
  intro other k hlow hhigh
  by_cases hbase : base ∈ keys.taken
  · obtain ⟨n, hn, heq⟩ := exists_search_of_mem hbase
    rw [heq] at hhigh ⊢
    by_cases hother : other = base
    · subst hother
      have hcounter : k ≤ n := by simpa [counter] using hhigh
      rcases Nat.lt_or_eq_of_le hcounter with hlt | rfl
      · exact List.mem_cons_of_mem _ ((h.search hn).mem_of_lt hlow hlt)
      · exact List.mem_cons_self
    · have hcounter : k ≤ keys.counter other := by
        simpa [counter, List.lookup_cons, beq_false_of_ne hother] using hhigh
      exact List.mem_cons_of_mem _ (h other k hlow hcounter)
  · rw [allocate_of_not_mem hbase] at hhigh ⊢
    exact List.mem_cons_of_mem _ (h other k hlow hhigh)

/-- The allocator after it has handed out keys for several bases. -/
def afterAll : KeyAllocator → List String → KeyAllocator
  | keys, [] => keys
  | keys, base :: rest => (keys.allocate base).2.afterAll rest

theorem Counted.afterAll {keys : KeyAllocator} (h : keys.Counted) (bases : List String) :
    (keys.afterAll bases).Counted := by
  induction bases generalizing keys with
  | nil => exact h
  | cons base rest ih => exact ih (h.allocate base)

/-- Taken are the keys that were handed out. -/
theorem taken_afterAll (keys : KeyAllocator) (bases : List String) :
    (keys.afterAll bases).taken = (keys.allocateAll bases).reverse ++ keys.taken := by
  induction bases generalizing keys with
  | nil => rfl
  | cons base rest ih =>
      rw [afterAll, ih, taken_allocate, allocateAll, List.reverse_cons, List.append_assoc]
      rfl

theorem allocateAll_append (keys : KeyAllocator) (bases more : List String) :
    keys.allocateAll (bases ++ more) =
      keys.allocateAll bases ++ (keys.afterAll bases).allocateAll more := by
  induction bases generalizing keys with
  | nil => rfl
  | cons base rest ih => simp only [List.cons_append, allocateAll, afterAll, ih]

/-- No key is handed out twice. Whatever keys an allocator has handed out, the next one is its base if
that is free, and otherwise the base with the least number that makes a free key. The search from the
remembered number comes to an end, at the number where the search from one does. -/
theorem allocate_afterAll (bases : List String) (base : String) :
    (({} : KeyAllocator).allocateAll (bases ++ [base])).Nodup ∧
      let given := ({} : KeyAllocator).allocateAll bases
      let keys := ({} : KeyAllocator).afterAll bases
      let key := (keys.allocate base).1
      ({} : KeyAllocator).allocateAll (bases ++ [base]) = given ++ [key] ∧
        (base ∉ given → key = base) ∧
        (base ∈ given → ∃ n, Search given base (keys.counter base) n ∧ Search given base 0 n ∧
          IsLeast {k | 1 ≤ k ∧ numbered base k ∉ given} n ∧ key = numbered base n) := by
  refine ⟨nodup_allocateAll {} (bases ++ [base]), ?_⟩
  intro given keys key
  have htaken (k : String) : k ∈ keys.taken ↔ k ∈ given := by
    simp [keys, given, taken_afterAll]
  refine ⟨allocateAll_append {} bases [base], fun hfree => ?_, fun hgiven => ?_⟩
  · rw [← htaken] at hfree
    exact congrArg Prod.fst (allocate_of_not_mem hfree)
  · rw [← htaken] at hgiven
    obtain ⟨n, hn, heq⟩ := exists_search_of_mem hgiven
    have hfirst : Search keys.taken base 0 n := (counted_empty.afterAll bases).search hn
    exact ⟨n, hn.congr htaken, hfirst.congr htaken, (hfirst.congr htaken).isLeast,
      congrArg Prod.fst heq⟩

/-- A base that reads like a generated key takes the number from the others. -/
example : ({} : KeyAllocator).allocateAll ["a_1", "a", "a", "a_1", "a", "a_1_1"] =
    ["a_1", "a", "a_2", "a_1_1", "a_3", "a_1_1_1"] := by
  decide +kernel

end KeyAllocator

end QueryTemplate
