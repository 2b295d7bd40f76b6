import Mathlib.Data.List.DropRight
import Mathlib.Tactic.NormNum

/-!
# A bounded ring that keeps the newest elements

An array of `cap` slots with a start index and a size, overwriting its oldest element once it is
full. The invariant is part of the type: indices are in range and every occupied slot holds a value.
-/

namespace RanGame

/-- A ring of `cap` slots, the oldest element at `start`. -/
structure Ring (α : Type*) where
  items : List (Option α)
  cap : ℕ
  start : ℕ
  size : ℕ
  length_items : items.length = cap
  start_lt : start < cap
  size_le : size ≤ cap
  filled : ∀ i < size, (items.getD ((start + i) % cap) none).isSome

namespace Ring

open List

variable {α : Type*}

/-- The content of the `i`-th slot after the oldest one. -/
def cell (r : Ring α) (i : ℕ) : Option α := r.items.getD ((r.start + i) % r.cap) none

/-- The elements, oldest first. -/
def toList (r : Ring α) : List α := (range r.size).filterMap r.cell

theorem cap_pos (r : Ring α) : 0 < r.cap := Nat.zero_lt_of_lt r.start_lt

/-- Offsets that differ by less than a full turn are different slots. -/
theorem slot_ne {start cap i j : ℕ} (hij : i < j) (hj : j < i + cap) :
    (start + i) % cap ≠ (start + j) % cap := by
  intro h
  have hdvd : cap ∣ start + j - (start + i) :=
    Nat.dvd_of_mod_eq_zero (Nat.sub_mod_eq_zero_of_mod_eq h.symm)
  have := Nat.le_of_dvd (by omega) hdvd
  omega

theorem getD_set_self {l : List (Option α)} {i : ℕ} (hi : i < l.length) (v : Option α) :
    (l.set i v).getD i none = v := by
  simp [getD, hi]

theorem getD_set_of_ne {l : List (Option α)} {i j : ℕ} (h : i ≠ j) (v : Option α) :
    (l.set i v).getD j none = l.getD j none := by
  simp [getD, h]

def empty (cap : ℕ) (hcap : 0 < cap) : Ring α where
  items := replicate cap none
  cap := cap
  start := 0
  size := 0
  length_items := length_replicate
  start_lt := hcap
  size_le := Nat.zero_le _
  filled := by simp

/-- Append, overwriting the oldest element when the ring is full. -/
def push (r : Ring α) (x : α) : Ring α :=
  if h : r.size < r.cap then
    { items := r.items.set ((r.start + r.size) % r.cap) (some x)
      cap := r.cap
      start := r.start
      size := r.size + 1
      length_items := by rw [length_set, r.length_items]
      start_lt := r.start_lt
      size_le := h
      filled := by
        intro i hi
        rcases Nat.lt_succ_iff_lt_or_eq.mp hi with hlt | rfl
        · rw [getD_set_of_ne (slot_ne hlt (by omega)).symm]
          exact r.filled i hlt
        · rw [getD_set_self (by rw [r.length_items]; exact Nat.mod_lt _ r.cap_pos)]
          rfl }
  else
    { items := r.items.set r.start (some x)
      cap := r.cap
      start := (r.start + 1) % r.cap
      size := r.size
      length_items := by rw [length_set, r.length_items]
      start_lt := Nat.mod_lt _ r.cap_pos
      size_le := r.size_le
      filled := by
        intro i hi
        have hsize : r.size = r.cap := Nat.le_antisymm r.size_le (Nat.not_lt.mp h)
        rw [Nat.mod_add_mod, Nat.add_assoc]
        -- the slot just written is the last one in the new reading order
        rcases Nat.lt_or_ge (1 + i) r.size with hlt | hge
        · have hne : (r.start + 0) % r.cap ≠ (r.start + (1 + i)) % r.cap :=
            slot_ne (by omega) (by omega)
          rw [Nat.add_zero, Nat.mod_eq_of_lt r.start_lt] at hne
          rw [getD_set_of_ne hne]
          exact r.filled _ hlt
        · have hi' : 1 + i = r.cap := by omega
          rw [hi', Nat.add_mod_right, Nat.mod_eq_of_lt r.start_lt,
            getD_set_self (by rw [r.length_items]; exact r.start_lt)]
          rfl }

@[simp] theorem toList_empty (cap : ℕ) (hcap : 0 < cap) : (empty cap hcap : Ring α).toList = [] :=
  rfl

@[simp] theorem push_cap (r : Ring α) (x : α) : (r.push x).cap = r.cap := by
  unfold push
  split <;> rfl

/-- The contents as slots: nothing is skipped, because occupied slots hold values. -/
theorem map_some_toList (r : Ring α) : r.toList.map some = (range r.size).map r.cell := by
  have key : ∀ n ≤ r.size, ((range n).filterMap r.cell).map some = (range n).map r.cell := by
    intro n
    induction n with
    | zero => intro _; rfl
    | succ n ih =>
      intro hn
      obtain ⟨x, hx⟩ := Option.isSome_iff_exists.mp (r.filled n hn)
      have hcell : r.cell n = some x := hx
      rw [range_succ, filterMap_append, map_append, ih (by omega), map_append]
      simp [hcell]
  exact key r.size le_rfl

@[simp] theorem length_toList (r : Ring α) : r.toList.length = r.size := by
  have := congrArg length r.map_some_toList
  simpa using this

/-- Room left: the old slots are untouched and the new element follows them. -/
theorem map_cell_push_of_lt {r : Ring α} (h : r.size < r.cap) (x : α) :
    (range (r.push x).size).map (r.push x).cell
      = (range r.size).map r.cell ++ [some x] := by
  have hsize : (r.push x).size = r.size + 1 := by rw [push, dif_pos h]
  have hcell : ∀ i, (r.push x).cell i
      = (r.items.set ((r.start + r.size) % r.cap) (some x)).getD ((r.start + i) % r.cap) none := by
    intro i; rw [push, dif_pos h]; rfl
  rw [hsize, range_succ, map_append]
  congr 1
  · refine map_congr_left fun i hi => ?_
    rw [hcell, getD_set_of_ne (slot_ne (mem_range.mp hi) (by have := mem_range.mp hi; omega)).symm]
    rfl
  · rw [map_singleton, hcell, getD_set_self (by rw [r.length_items]; exact Nat.mod_lt _ r.cap_pos)]

/-- Full: the oldest slot is reused and becomes the newest. -/
theorem map_cell_push_of_full {r : Ring α} (h : ¬ r.size < r.cap) (x : α) :
    (range (r.push x).size).map (r.push x).cell
      = ((range r.size).map r.cell).drop 1 ++ [some x] := by
  have hfull : r.size = r.cap := Nat.le_antisymm r.size_le (Nat.not_lt.mp h)
  have hsize : (r.push x).size = r.size := by rw [push, dif_neg h]
  have hcell : ∀ i, (r.push x).cell i
      = (r.items.set r.start (some x)).getD ((r.start + (1 + i)) % r.cap) none := by
    intro i
    rw [push, dif_neg h, cell]
    simp only [Nat.mod_add_mod, Nat.add_assoc]
  obtain ⟨m, hm⟩ : ∃ m, r.size = m + 1 := ⟨r.size - 1, by have := r.cap_pos; omega⟩
  have hdrop : ((range (m + 1)).map r.cell).drop 1 = (range m).map (r.cell ∘ Nat.succ) := by
    rw [range_succ_eq_map, map_cons, map_map]
    rfl
  rw [hsize, hm, hdrop, range_succ, map_append]
  congr 1
  · refine map_congr_left fun i hi => ?_
    have hi : i < m := mem_range.mp hi
    have hne : (r.start + 0) % r.cap ≠ (r.start + (1 + i)) % r.cap := slot_ne (by omega) (by omega)
    rw [Nat.add_zero, Nat.mod_eq_of_lt r.start_lt] at hne
    rw [hcell, getD_set_of_ne hne, Function.comp_apply, cell, Nat.add_comm 1 i]
  · rw [map_singleton, hcell, show 1 + m = r.cap by omega, Nat.add_mod_right,
      Nat.mod_eq_of_lt r.start_lt, getD_set_self (by rw [r.length_items]; exact r.start_lt)]

/-- **A push keeps the newest `cap` elements.** -/
theorem toList_push (r : Ring α) (x : α) : (r.push x).toList = (r.toList ++ [x]).rtake r.cap := by
  refine map_injective_iff.mpr (Option.some_injective α) ?_
  have hlen : (r.toList ++ [x]).length = r.size + 1 := by simp
  rw [map_some_toList, rtake, hlen, map_drop, map_append, map_some_toList]
  by_cases h : r.size < r.cap
  · rw [map_cell_push_of_lt h, show r.size + 1 - r.cap = 0 by omega]
    rfl
  · have hfull : r.size = r.cap := Nat.le_antisymm r.size_le (Nat.not_lt.mp h)
    have hpos := r.cap_pos
    rw [map_cell_push_of_full h, show r.size + 1 - r.cap = 1 by omega,
      drop_append_of_le_length (by simp; omega)]
    rfl

theorem rtake_rtake_append (l : List α) (x : α) (n : ℕ) :
    (l.rtake n ++ [x]).rtake n = (l ++ [x]).rtake n := by
  cases n with
  | zero => simp
  | succ n =>
    rw [rtake_concat_succ, rtake_concat_succ]
    congr 1
    simp only [rtake, drop_drop, length_drop]
    congr 1
    omega

@[simp] theorem foldl_push_cap (r : Ring α) (xs : List α) : (xs.foldl push r).cap = r.cap := by
  induction xs generalizing r with
  | nil => rfl
  | cons x xs ih => rw [foldl_cons, ih, push_cap]

/-- **After any sequence of pushes** the ring holds the last `cap` elements of its history. -/
theorem toList_foldl_push (r : Ring α) (xs : List α) :
    (xs.foldl push r).toList = (r.toList ++ xs).rtake r.cap := by
  induction xs using reverseRecOn with
  | nil =>
    have hle : r.size - r.cap = 0 := Nat.sub_eq_zero_of_le r.size_le
    simp [rtake, hle]
  | append_singleton xs x ih =>
    rw [foldl_append, foldl_cons, foldl_nil, toList_push, ih, foldl_push_cap,
      rtake_rtake_append, append_assoc]

end Ring

end RanGame
