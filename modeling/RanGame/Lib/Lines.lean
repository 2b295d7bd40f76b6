import RanGame.Lib.PartialMap
import Mathlib.Data.List.Count
import Mathlib.Data.List.Nodup

/-!
# Waiting lines with an index

Items wait in lines, one for each key, and every item has an owner. `Indexed` says that an index has
an entry for exactly the owners who wait, and nobody waits twice. Putting an item at the end of a
line, serving a whole line and an owner's leaving keep it. An item may also be taken out of the
middle of a line.
-/

namespace RanGame

open Function List

section PartialMap

variable {K V : Type*} [DecidableEq K]

/-- The map with some entries deleted, one after the other. -/
def PartialMap.eraseAll (m : PartialMap K V) (ks : List K) : PartialMap K V :=
  ks.foldl PartialMap.erase m

theorem PartialMap.eraseAll_eq_some {m : PartialMap K V} {ks : List K} {j : K} {w : V} :
    m.eraseAll ks j = some w ↔ j ∉ ks ∧ m j = some w := by
  induction ks generalizing m with
  | nil => simp [eraseAll]
  | cons k ks ih =>
    rw [show m.eraseAll (k :: ks) = (m.erase k).eraseAll ks from rfl, ih, erase_eq_some,
      mem_cons, not_or]
    tauto

end PartialMap

namespace Lines

/-! ### Taking an item out

Some of the items in a line are watched, those that satisfy `p`. -/

section TakeOut

variable {α : Type*} {p : α → Bool} {l : List α} {k : ℕ} {x : α}

theorem filter_eraseIdx_of_not (hk : l[k]? = some x) (hx : p x = false) :
    (l.eraseIdx k).filter p = l.filter p := by
  induction l generalizing k with
  | nil => cases hk
  | cons y l ih =>
    cases k with
    | zero =>
      cases hk
      rw [eraseIdx_cons_zero, filter_cons_of_neg (by rw [hx]; nofun)]
    | succ k =>
      rw [eraseIdx_cons_succ, filter_cons, filter_cons, ih hk]

theorem filter_of_first (hk : l[k]? = some x) (hx : p x = true)
    (hfirst : ∀ y ∈ l.take k, p y = false) : l.filter p = x :: (l.eraseIdx k).filter p := by
  induction l generalizing k with
  | nil => cases hk
  | cons y l ih =>
    cases k with
    | zero =>
      cases hk
      rw [eraseIdx_cons_zero, filter_cons_of_pos hx]
    | succ k =>
      have hy : ¬ p y = true := by rw [hfirst y mem_cons_self]; nofun
      rw [eraseIdx_cons_succ, filter_cons_of_neg hy, filter_cons_of_neg hy]
      exact ih hk fun z hz => hfirst z (mem_cons_of_mem y hz)

theorem filter_of_only (hk : l[k]? = some x) (hx : p x = true)
    (hone : (l.filter p).length ≤ 1) : l.filter p = [x] ∧ (l.eraseIdx k).filter p = [] := by
  induction l generalizing k with
  | nil => cases hk
  | cons y l ih =>
    cases k with
    | zero =>
      cases hk
      rw [filter_cons_of_pos hx] at hone ⊢
      have hnil : l.filter p = [] :=
        length_eq_zero_iff.mp (Nat.le_zero.mp (Nat.le_of_succ_le_succ hone))
      exact ⟨by rw [hnil], hnil⟩
    | succ k =>
      have hmem : x ∈ l.filter p := mem_filter.mpr ⟨mem_of_getElem? hk, hx⟩
      by_cases hy : p y = true
      · rw [filter_cons_of_pos hy, length_cons] at hone
        have := length_pos_of_mem hmem
        omega
      · rw [eraseIdx_cons_succ]
        rw [filter_cons_of_neg hy] at hone ⊢
        rw [filter_cons_of_neg hy]
        exact ih hk hone

theorem exists_first (h : l.filter p ≠ []) :
    ∃ k x, l[k]? = some x ∧ p x = true ∧ ∀ y ∈ l.take k, p y = false := by
  induction l with
  | nil => exact absurd rfl h
  | cons y l ih =>
    cases hy : p y with
    | true => exact ⟨0, y, rfl, hy, nofun⟩
    | false =>
      rw [filter_cons_of_neg (by rw [hy]; nofun)] at h
      obtain ⟨k, x, hk, hx, hfirst⟩ := ih h
      refine ⟨k + 1, x, hk, hx, ?_⟩
      intro z hz
      rcases mem_cons.mp hz with rfl | hz
      · exact hy
      · exact hfirst z hz

end TakeOut

/-! ### The index -/

variable {K U α : Type*} {owner : α → U} {lines : K → List α} {index : PartialMap U K}

structure Indexed (owner : α → U) (lines : K → List α) (index : PartialMap U K) : Prop where
  nodup : ∀ k, ((lines k).map owner).Nodup
  mem_iff : ∀ u k, index u = some k ↔ u ∈ (lines k).map owner

theorem indexed_empty : Indexed owner (fun _ : K => []) fun _ => none where
  nodup := fun _ => nodup_nil
  mem_iff := by simp

/-- **What the index says of an owner**: it waits once in this line and in no other. -/
theorem Indexed.index_iff [DecidableEq U] (h : Indexed owner lines index) (u : U) (k : K) :
    index u = some k ↔
      ((lines k).map owner).count u = 1 ∧ ∀ j, j ≠ k → ((lines j).map owner).count u = 0 := by
  constructor
  · intro hu
    refine ⟨count_eq_one_of_mem (h.nodup k) ((h.mem_iff u k).mp hu), ?_⟩
    intro j hj
    refine count_eq_zero.mpr fun hmem => hj ?_
    exact Option.some.inj (((h.mem_iff u j).mpr hmem).symm.trans hu)
  · rintro ⟨hu, -⟩
    exact (h.mem_iff u k).mpr (count_pos_iff.mp (by omega))

theorem Indexed.not_mem (h : Indexed owner lines index) {u : U} (hu : index u = none) (k : K) :
    u ∉ (lines k).map owner := by
  intro hmem
  have := (h.mem_iff u k).mpr hmem
  rw [hu] at this
  cases this

variable [DecidableEq K] [DecidableEq U]

theorem Indexed.push (h : Indexed owner lines index) {a : α} {k : K} (ha : index (owner a) = none) :
    Indexed owner (update lines k (lines k ++ [a])) (index.insert (owner a) k) where
  nodup := by
    refine (forall_update_iff lines fun _ l => (l.map owner).Nodup).mpr ⟨?_, fun j _ => h.nodup j⟩
    rw [map_append, map_singleton, ← concat_eq_append]
    exact (h.nodup k).concat (h.not_mem ha k)
  mem_iff := by
    intro u j
    rw [PartialMap.insert_eq_some]
    by_cases hu : u = owner a
    · subst hu
      have hother : j ≠ k → owner a ∉ (lines j).map owner := fun _ => h.not_mem ha j
      by_cases hj : j = k
      · subst hj
        simp
      · simp [update_of_ne hj, hother hj, Ne.symm hj]
    · by_cases hj : j = k
      · subst hj
        simp [hu, h.mem_iff]
      · simp [hu, update_of_ne hj, h.mem_iff]

/-- A line is served, with an item that has just come: its owners are deleted from the index. -/
theorem Indexed.serve (h : Indexed owner lines index) {a : α} {k : K}
    (ha : index (owner a) = none) :
    Indexed owner (update lines k []) (index.eraseAll ((lines k ++ [a]).map owner)) where
  nodup := (forall_update_iff lines fun _ l => (l.map owner).Nodup).mpr
    ⟨nodup_nil, fun j _ => h.nodup j⟩
  mem_iff := by
    intro u j
    rw [PartialMap.eraseAll_eq_some, map_append, map_singleton, mem_append, mem_singleton, not_or]
    by_cases hj : j = k
    · subst hj
      simp only [update_self, map_nil, not_mem_nil, iff_false]
      rintro ⟨⟨hu, -⟩, hidx⟩
      exact hu ((h.mem_iff u j).mp hidx)
    · rw [update_of_ne hj, ← h.mem_iff u j]
      refine ⟨fun hu => hu.2, fun hu => ⟨⟨?_, ?_⟩, hu⟩⟩
      · intro hk
        exact hj (Option.some.inj (hu.symm.trans ((h.mem_iff u k).mpr hk)))
      · rintro rfl
        rw [ha] at hu
        cases hu

/-- The line without the first item of an owner. -/
def leave (owner : α → U) (u : U) (l : List α) : List α := l.eraseP fun a => owner a = u

theorem leave_cons (u : U) (a : α) (l : List α) :
    leave owner u (a :: l) = if owner a = u then l else a :: leave owner u l := by
  rw [leave, eraseP_cons]
  by_cases h : owner a = u <;> simp [h, leave]

theorem map_leave (u : U) (l : List α) : (leave owner u l).map owner = (l.map owner).erase u := by
  induction l with
  | nil => rfl
  | cons a l ih =>
    rw [leave_cons, map_cons, erase_cons]
    by_cases h : owner a = u
    · simp [h]
    · simp [h, ih]

theorem Indexed.leave (h : Indexed owner lines index) {u : U} {k : K} (hu : index u = some k) :
    Indexed owner (update lines k (leave owner u (lines k))) (index.erase u) where
  nodup := by
    refine (forall_update_iff lines fun _ l => (l.map owner).Nodup).mpr ⟨?_, fun j _ => h.nodup j⟩
    rw [map_leave]
    exact (h.nodup k).erase u
  mem_iff := by
    intro v j
    rw [PartialMap.erase_eq_some]
    by_cases hj : j = k
    · subst hj
      rw [update_self, map_leave, (h.nodup j).mem_erase_iff, h.mem_iff]
    · rw [update_of_ne hj, ← h.mem_iff]
      refine ⟨fun hv => hv.2, fun hv => ⟨?_, hv⟩⟩
      rintro rfl
      exact hj (Option.some.inj (hv.symm.trans hu))

end Lines

end RanGame
