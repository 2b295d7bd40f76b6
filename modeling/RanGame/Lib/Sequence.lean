import Mathlib.Data.List.Chain
import Mathlib.Data.UInt

/-!
# Consecutive sequence numbers

Lists of 32-bit numbers in which each is the successor of the one before, without wrapping: what a
counter hands out, and what remains of it in a window or above a threshold.
-/

namespace RanGame

/-- Each number is the successor of the one before. -/
def Consecutive (l : List UInt32) : Prop := l.IsChain fun a b => b.toNat = a.toNat + 1

instance (l : List UInt32) : Decidable (Consecutive l) := inferInstanceAs (Decidable (l.IsChain _))

namespace Consecutive

open List

variable {l l' : List UInt32} {x y : UInt32}

@[simp] theorem nil : Consecutive [] := List.IsChain.nil

@[simp] theorem singleton (x : UInt32) : Consecutive [x] := List.IsChain.singleton x

variable (h : Consecutive l)

include h

theorem pairwise : l.Pairwise (· < ·) := by
  have hlt : l.IsChain (fun a b : UInt32 => a.toNat < b.toNat) := h.imp fun a b hab => by omega
  have htrans : IsTrans UInt32 fun a b => a.toNat < b.toNat := ⟨fun a b c => Nat.lt_trans⟩
  exact (isChain_iff_pairwise.mp hlt).imp UInt32.lt_iff_toNat_lt.mpr

theorem suffix (hs : l' <:+ l) : Consecutive l' := List.IsChain.suffix h hs

theorem concat (hlast : ∀ q ∈ l.getLast?, y.toNat = q.toNat + 1) : Consecutive (l ++ [y]) := by
  refine isChain_append.mpr ⟨h, singleton y, fun q hq z hz => ?_⟩
  obtain rfl : y = z := by simpa using hz
  exact hlast q hq

theorem le_getLast (hx : x ∈ l) (hy : y ∈ l.getLast?) : x ≤ y := by
  obtain ⟨l', rfl⟩ := getLast?_eq_some_iff.mp hy
  rcases mem_append.mp hx with hx | hx
  · have hlt := (pairwise_append.mp h.pairwise).2.2 x hx y (mem_singleton_self y)
    exact UInt32.le_of_lt hlt
  · obtain rfl : x = y := by simpa using hx
    exact UInt32.le_refl x

theorem filter_gt_suffix (x : UInt32) : l.filter (fun q => q > x) <:+ l := by
  induction l with
  | nil => exact suffix_refl []
  | cons a l ih =>
    by_cases ha : a > x
    · -- everything after `a` is larger still
      have hall : ∀ q ∈ a :: l, decide (q > x) = true := by
        intro q hq
        rcases mem_cons.mp hq with rfl | hq
        · simpa using ha
        · have haq : a < q := rel_of_pairwise_cons h.pairwise hq
          simpa using UInt32.lt_trans ha haq
      rw [filter_eq_self.mpr hall]
    · rw [filter_cons_of_neg (by simpa using ha)]
      exact (ih (suffix h (suffix_cons a l))).trans (suffix_cons a l)

theorem filter_gt (x : UInt32) : Consecutive (l.filter fun q => q > x) ∧
      ∀ q ∈ (l.filter fun q => q > x).getLast?, q ∈ l.getLast? := by
  have hs := h.filter_gt_suffix x
  refine ⟨h.suffix hs, fun q hq => ?_⟩
  obtain ⟨front, hfront⟩ := hs
  obtain ⟨l', hl'⟩ := getLast?_eq_some_iff.mp hq
  rw [← hfront, hl', ← append_assoc]
  simp

end Consecutive

end RanGame
