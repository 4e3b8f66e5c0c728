import Mathlib.Data.List.Nodup
import Mathlib.Data.List.Perm.Subperm
import QueryTemplate.Format
import QueryTemplate.Proofs.MarkedText

/-!
Keys are handed out once each. A base that was not handed out before is its own key; otherwise the
key is the base with a number, and since different numbers make different keys, the search for one
that is free comes to an end.
-/

namespace QueryTemplate

namespace KeyAllocator

theorem numbered_injective (base : String) : Function.Injective (numbered base) := by
  intro m n h
  exact toString_injective ((String.append_right_inj _).mp h)

theorem lt_nextFree (taken : List String) (base : String) (fuel n : Nat) :
    n < nextFree taken base fuel n := by
  induction fuel generalizing n with
  | zero => exact Nat.lt_succ_self n
  | succ fuel ih =>
      rw [nextFree]
      split
      · exact Nat.lt_trans (Nat.lt_succ_self n) (ih (n + 1))
      · exact Nat.lt_succ_self n

/-- If the search ends with a key that is taken, then every key it could have looked at is. -/
theorem taken_of_nextFree {taken : List String} {base : String} {fuel n : Nat}
    (h : numbered base (nextFree taken base fuel n) ∈ taken) {m : Nat} (hlow : n < m)
    (hhigh : m ≤ n + fuel + 1) : numbered base m ∈ taken := by
  induction fuel generalizing n with
  | zero =>
      obtain rfl : m = n + 1 := by omega
      exact h
  | succ fuel ih =>
      rw [nextFree] at h
      split at h
      · rename_i hnext
        rcases Nat.lt_or_ge (n + 1) m with hm | hm
        · exact ih h hm (by omega)
        · obtain rfl : m = n + 1 := by omega
          exact List.contains_iff_mem.mp hnext
      · rename_i hnext
        exact absurd (List.contains_iff_mem.mpr h) hnext

/-- Among as many numbers as keys are taken, and one more, there is one whose key is free. -/
theorem nextFree_not_mem (taken : List String) (base : String) (n : Nat) :
    numbered base (nextFree taken base taken.length n) ∉ taken := by
  intro h
  have hsubset : (List.range' (n + 1) (taken.length + 1)).map (numbered base) ⊆ taken := by
    intro key hkey
    obtain ⟨m, hm, rfl⟩ := List.mem_map.mp hkey
    rw [List.mem_range'_1] at hm
    exact taken_of_nextFree h (by omega) (by omega)
  have hnodup : ((List.range' (n + 1) (taken.length + 1)).map (numbered base)).Nodup :=
    List.Nodup.map (numbered_injective base) List.nodup_range'
  have hle := (hnodup.subperm hsubset).length_le
  rw [List.length_map, List.length_range'] at hle
  omega

/-- How a key comes from its base, given the keys that were handed out before. -/
def DerivedFrom (taken : List String) (base key : String) : Prop :=
  (base ∉ taken ∧ key = base) ∨ (base ∈ taken ∧ key ∉ taken ∧ ∃ n, 0 < n ∧ key = numbered base n)

theorem allocate_derivedFrom (keys : KeyAllocator) (base : String) :
    DerivedFrom keys.taken base (keys.allocate base).1 := by
  rw [allocate]
  split
  · rename_i htaken
    refine .inr ⟨List.contains_iff_mem.mp htaken, nextFree_not_mem keys.taken base _, _, ?_, rfl⟩
    exact Nat.lt_of_le_of_lt (Nat.zero_le _) (lt_nextFree keys.taken base _ _)
  · rename_i htaken
    exact .inl ⟨fun hmem => htaken (List.contains_iff_mem.mpr hmem), rfl⟩

theorem DerivedFrom.not_mem {taken : List String} {base key : String}
    (h : DerivedFrom taken base key) : key ∉ taken := by
  rcases h with ⟨hbase, rfl⟩ | ⟨-, hkey, -⟩
  · exact hbase
  · exact hkey

@[simp] theorem taken_allocate (keys : KeyAllocator) (base : String) :
    (keys.allocate base).2.taken = (keys.allocate base).1 :: keys.taken := by
  rw [allocate]
  split
  · rfl
  · rfl

/-- The keys for several bases, one after the other. -/
def allocateAll : KeyAllocator → List String → List String
  | _, [] => []
  | keys, base :: rest =>
    (keys.allocate base).1 :: (keys.allocate base).2.allocateAll rest

@[simp] theorem length_allocateAll (keys : KeyAllocator) (bases : List String) :
    (keys.allocateAll bases).length = bases.length := by
  induction bases generalizing keys with
  | nil => rfl
  | cons base rest ih => simp [allocateAll, ih]

theorem not_mem_taken_of_mem_allocateAll {keys : KeyAllocator} {bases : List String} {key : String}
    (h : key ∈ keys.allocateAll bases) : key ∉ keys.taken := by
  induction bases generalizing keys with
  | nil => contradiction
  | cons base rest ih =>
      rcases List.mem_cons.mp h with rfl | hrest
      · exact (keys.allocate_derivedFrom base).not_mem
      · have hlater := ih hrest
        rw [taken_allocate] at hlater
        exact fun hmem => hlater (List.mem_cons_of_mem _ hmem)

/-- No key is handed out twice. -/
theorem nodup_allocateAll (keys : KeyAllocator) (bases : List String) :
    (keys.allocateAll bases).Nodup := by
  induction bases generalizing keys with
  | nil => exact List.nodup_nil
  | cons base rest ih =>
      refine List.nodup_cons.mpr ⟨fun hmem => ?_, ih _⟩
      refine not_mem_taken_of_mem_allocateAll hmem ?_
      rw [taken_allocate]
      exact List.mem_cons_self

/-- Every key comes from its base, given those taken at the beginning and those handed out since. -/
theorem allocateAll_derivedFrom (keys : KeyAllocator) (bases : List String) {k : Nat}
    {base key : String} (hbase : bases[k]? = some base)
    (hkey : (keys.allocateAll bases)[k]? = some key) :
    DerivedFrom (((keys.allocateAll bases).take k).reverse ++ keys.taken) base key := by
  induction bases generalizing keys k with
  | nil => contradiction
  | cons first rest ih =>
      cases k with
      | zero =>
          cases hbase
          cases hkey
          exact keys.allocate_derivedFrom _
      | succ k =>
          have hrest := ih (keys.allocate first).2 hbase hkey
          rw [taken_allocate] at hrest
          rw [allocateAll, List.take_succ_cons, List.reverse_cons, List.append_assoc]
          exact hrest

end KeyAllocator

end QueryTemplate
