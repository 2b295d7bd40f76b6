import Mathlib.Algebra.BigOperators.Group.List.Basic
import Mathlib.Algebra.Order.Group.Multiset
import Mathlib.Tactic.Abel

/-!
# Piles of things, and dealing them out

A family of lists, one for each owner, and what they hold together as a multiset. Giving one owner
another pile changes the total by exactly the difference. Shuffling an array by swapping places, and
handing the elements of a list around a circle of piles keep the total.
-/

namespace RanGame.Piles

open Function List

variable {ι α : Type*}

/-! ### The total -/

/-- What the piles of the given owners hold together. -/
def total (owners : List ι) (pile : ι → List α) : Multiset α :=
  (owners.map fun i => (pile i : Multiset α)).sum

@[simp] theorem total_nil (pile : ι → List α) : total [] pile = 0 := rfl

@[simp] theorem total_cons (i : ι) (owners : List ι) (pile : ι → List α) :
    total (i :: owners) pile = pile i + total owners pile := by
  simp [total]

theorem total_congr {owners : List ι} {pile pile' : ι → List α}
    (h : ∀ i ∈ owners, (pile i).Perm (pile' i)) : total owners pile = total owners pile' := by
  rw [total, total, map_congr_left]
  intro i hi
  exact Multiset.coe_eq_coe.mpr (h i hi)

section Update

variable [DecidableEq ι]

variable {owners : List ι} {i : ι}

theorem total_update_of_notMem (hi : i ∉ owners) (pile : ι → List α) (xs : List α) :
    total owners (update pile i xs) = total owners pile := by
  refine total_congr fun j hj => ?_
  rw [update_of_ne (by rintro rfl; exact hi hj)]

variable (hnodup : owners.Nodup) (hi : i ∈ owners)

include hnodup hi

/-- **Replacing one pile** takes out what was there and puts in what is there now. -/
theorem total_update (pile : ι → List α) (xs : List α) :
    total owners (update pile i xs) + pile i = total owners pile + xs := by
  induction owners with
  | nil => cases hi
  | cons j owners ih =>
    obtain ⟨hj, hnodup⟩ := nodup_cons.mp hnodup
    rcases mem_cons.mp hi with rfl | hi
    · rw [total_cons, total_cons, update_self, total_update_of_notMem hj]
      abel
    · have hne : j ≠ i := by
        rintro rfl
        exact hj hi
      rw [total_cons, total_cons, update_of_ne hne, add_assoc, ih hnodup hi, add_assoc]

theorem total_update_append (pile : ι → List α) (xs : List α) :
    total owners (update pile i (pile i ++ xs)) = total owners pile + xs := by
  have h := total_update hnodup hi pile (pile i ++ xs)
  rw [← Multiset.coe_add, ← add_assoc, add_right_comm] at h
  exact add_right_cancel h

theorem total_update_perm {pile : ι → List α} {xs : List α} (h : xs.Perm (pile i)) :
    total owners (update pile i xs) = total owners pile := by
  have hupdate := total_update hnodup hi pile xs
  rw [Multiset.coe_eq_coe.mpr h] at hupdate
  exact add_right_cancel hupdate

end Update

/-- Fisher–Yates: from place `k` down to place `1`, swap with a place at or before it. -/
def shuffle {σ : Type*} (draw : σ → ℕ → ℕ × σ) : ℕ → σ → Array α → σ × Array α
  | 0, s, deck => (s, deck)
  | k + 1, s, deck =>
    shuffle draw k (draw s (k + 2)).2 (deck.swapIfInBounds (k + 1) (draw s (k + 2)).1)

theorem swapIfInBounds_perm (deck : Array α) (i j : ℕ) : (deck.swapIfInBounds i j).Perm deck := by
  rw [Array.swapIfInBounds_def]
  split
  · split
    · exact Array.swap_perm _ _
    · exact .refl deck
  · exact .refl deck

/-- **A shuffled deck is the same deck.** -/
theorem shuffle_perm {σ : Type*} (draw : σ → ℕ → ℕ × σ) (k : ℕ) (s : σ) (deck : Array α) :
    (shuffle draw k s deck).2.Perm deck := by
  induction k generalizing s deck with
  | zero => exact .refl deck
  | succ k ih => exact (ih _ _).trans (swapIfInBounds_perm _ _ _)

theorem toList_shuffle_perm {σ : Type*} (draw : σ → ℕ → ℕ × σ) (k : ℕ) (s : σ) (deck : List α) :
    (shuffle draw k s deck.toArray).2.toList.Perm deck :=
  Array.perm_iff_toList_perm.mp (shuffle_perm draw k s deck.toArray)

/-! ### Dealing -/

/-- Deal a list around `k` piles, starting with pile `i % k`. -/
def roundRobin (k : ℕ) : List α → ℕ → (ℕ → List α) → ℕ → List α
  | [], _, piles => piles
  | x :: xs, i, piles => roundRobin k xs (i + 1) (update piles (i % k) (piles (i % k) ++ [x]))

variable {k : ℕ} {owners : List ι}

/-- **Everything dealt out is in one of the piles.** -/
theorem total_roundRobin (hk : 0 < k) (xs : List α) (i : ℕ) (piles : ℕ → List α) :
    total (List.range k) (roundRobin k xs i piles) = total (List.range k) piles + xs := by
  induction xs generalizing i piles with
  | nil => simp [roundRobin]
  | cons x xs ih =>
    have hi : i % k ∈ range k := mem_range.mpr (Nat.mod_lt i hk)
    rw [roundRobin, ih, total_update_append nodup_range hi, add_assoc, Multiset.coe_add,
      singleton_append]

theorem length_roundRobin (k : ℕ) (xs : List α) (i : ℕ) (piles : ℕ → List α) (j : ℕ) :
    (roundRobin k xs i piles j).length =
      (piles j).length + (List.range' i xs.length).countP (· % k = j) := by
  induction xs generalizing i piles with
  | nil => rfl
  | cons x xs ih =>
    rw [roundRobin, ih, length_cons, range'_succ, countP_cons]
    by_cases hj : j = i % k
    · rw [← hj, update_self, length_append, length_singleton, if_pos (decide_eq_true rfl)]
      omega
    · rw [update_of_ne hj, if_neg (by simpa using Ne.symm hj), add_zero]

/-- Give pile `i` to the first owner, pile `i + 1` to the next, and so on. -/
def assign [DecidableEq ι] : List ι → ℕ → (ℕ → List α) → (ι → List α) → ι → List α
  | [], _, _, pile => pile
  | j :: owners, i, piles, pile => assign owners (i + 1) piles (update pile j (piles i))

theorem assign_of_notMem [DecidableEq ι] {j : ι} (hj : j ∉ owners) (i : ℕ) (piles : ℕ → List α)
    (pile : ι → List α) : assign owners i piles pile j = pile j := by
  induction owners generalizing i pile with
  | nil => rfl
  | cons o owners ih =>
    rw [mem_cons, not_or] at hj
    obtain ⟨hne, hj⟩ := hj
    rw [assign, ih hj, update_of_ne hne]

/-- What holds of the piles that are given away holds of what their owners have. -/
theorem assign_of_mem [DecidableEq ι] {P : List α → Prop} {j : ι} (hj : j ∈ owners) {i : ℕ}
    {piles : ℕ → List α} (pile : ι → List α) (h : ∀ n < owners.length, P (piles (i + n))) :
    P (assign owners i piles pile j) := by
  induction owners generalizing i pile with
  | nil => cases hj
  | cons o owners ih =>
    rw [assign]
    by_cases hmem : j ∈ owners
    · refine ih hmem _ fun n hn => ?_
      have hnext := h (n + 1) (Nat.succ_lt_succ hn)
      rwa [← add_assoc, add_right_comm] at hnext
    · obtain rfl : j = o := (mem_cons.mp hj).resolve_right hmem
      rw [assign_of_notMem hmem, update_self]
      exact h 0 (Nat.succ_pos _)

theorem total_assign [DecidableEq ι] (hnodup : owners.Nodup) (i : ℕ) (piles : ℕ → List α)
    (pile : ι → List α) :
    total owners (assign owners i piles pile) = total (List.range' i owners.length) piles := by
  induction owners generalizing i pile with
  | nil => rfl
  | cons j owners ih =>
    obtain ⟨hj, hnodup⟩ := nodup_cons.mp hnodup
    rw [total_cons, assign, assign_of_notMem hj, update_self, ih hnodup,
      length_cons, range'_succ, total_cons]

end RanGame.Piles
