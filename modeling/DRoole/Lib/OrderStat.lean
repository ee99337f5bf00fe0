import Mathlib.Data.List.Sort

/-!
# Order statistics of a list

The `k`-th largest value by sorting, and the same value by counting: it is the
largest bound that more than `k` values reach.
-/

namespace Lib

variable {α : Type} [LinearOrder α]

/-- The `k`-th largest value, counted from 0. -/
def nthLargest (vs : List α) (k : Nat) : Option α := (vs.insertionSort (· ≥ ·))[k]?

/-- In a list that does not increase, the values from `n` on are an initial part. -/
theorem le_getElem?_iff_lt_countP {vs : List α} (hsorted : vs.Pairwise (· ≥ ·)) {k : Nat} {m n : α}
    (hm : vs[k]? = some m) : n ≤ m ↔ k < vs.countP (n ≤ ·) := by
  induction vs generalizing k with
  | nil => cases hm
  | cons v vs ih =>
    obtain ⟨hhead, htail⟩ := List.pairwise_cons.1 hsorted
    by_cases hv : n ≤ v
    · rw [List.countP_cons_of_pos (by simpa using hv)]
      cases k with
      | zero =>
        cases hm
        exact iff_of_true hv (Nat.succ_pos _)
      | succ k => rw [ih htail hm, Nat.add_lt_add_iff_right]
    · have hnone : ∀ x ∈ v :: vs, ¬ n ≤ x := by
        intro x hx hn
        rcases List.mem_cons.1 hx with rfl | hx
        · exact hv hn
        · exact hv (le_trans hn (hhead x hx))
      have hcount : (v :: vs).countP (n ≤ ·) = 0 := by
        rw [List.countP_eq_zero]
        simpa using hnone
      rw [hcount]
      exact iff_of_false (hnone m (List.mem_of_getElem? hm)) (Nat.not_lt_zero k)

/-- **Sorting against counting.** -/
theorem le_nthLargest_iff {vs : List α} {k : Nat} {m n : α} (hm : nthLargest vs k = some m) :
    n ≤ m ↔ k < vs.countP (n ≤ ·) := by
  rw [le_getElem?_iff_lt_countP (List.pairwise_insertionSort (· ≥ ·) vs) hm,
    (List.perm_insertionSort (· ≥ ·) vs).countP_eq]

theorem exists_nthLargest (vs : List α) {k : Nat} (hk : k < vs.length) :
    ∃ m, nthLargest vs k = some m :=
  ⟨_, List.getElem?_eq_getElem (by rwa [List.length_insertionSort])⟩

end Lib
