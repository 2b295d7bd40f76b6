import Mathlib.Data.Int.Notation
import Mathlib.Data.List.Nodup

/-!
# Heaps whose elements know their places

A priority queue in an array. The library that keeps it in order touches the array only by swapping
two places, appending an element and taking the last one away, and an index tells every element its
place. Which swaps restore the order is left open; `Placed` says that the index is right.
-/

namespace RanGame

open Function List Option

structure IndexedHeap (α : Type*) where
  items : List α
  /-- The place of an element, `-1` for one that is not in the heap. -/
  index : α → ℤ

namespace IndexedHeap

variable {α : Type*}

def empty : IndexedHeap α := ⟨[], fun _ => -1⟩

/-- Every element has its place for an index, and so no element has two places. -/
structure Placed (h : IndexedHeap α) : Prop where
  index : ∀ (i : ℕ) a, h.items[i]? = some a → h.index a = i
  absent : ∀ a ∉ h.items, h.index a = -1

variable {h : IndexedHeap α} {a : α}

theorem placed_empty : (empty : IndexedHeap α).Placed :=
  ⟨fun _ _ hi => absurd hi (by simp [empty]), fun _ _ => rfl⟩

theorem Placed.nodup (hp : h.Placed) : h.items.Nodup := by
  rw [nodup_iff_getElem?_ne_getElem?]
  intro i j hlt hj heq
  have hi := hp.index i _ (heq.trans (getElem?_eq_getElem hj))
  have hj := hp.index j _ (getElem?_eq_getElem hj)
  omega

theorem Placed.exists_index (hp : h.Placed) (ha : a ∈ h.items) :
    ∃ i : ℕ, h.items[i]? = some a ∧ h.index a = i := by
  obtain ⟨i, hi⟩ := mem_iff_getElem?.mp ha
  exact ⟨i, hi, hp.index i a hi⟩

variable [DecidableEq α]

def swap (h : IndexedHeap α) (i j : ℕ) : IndexedHeap α :=
  match h.items[i]?, h.items[j]? with
  | some a, some b => ⟨(h.items.set i b).set j a, update (update h.index b i) a j⟩
  | _, _ => h

def push (h : IndexedHeap α) (a : α) : IndexedHeap α :=
  ⟨h.items ++ [a], update h.index a h.items.length⟩

/-- Take the last element away. -/
def pop (h : IndexedHeap α) : Option (α × IndexedHeap α) :=
  h.items.getLast?.map fun a => (a, ⟨h.items.dropLast, update h.index a (-1)⟩)

/-- Some swaps among the first `n` places. -/
def fix (h : IndexedHeap α) (n : ℕ) (swaps : List (ℕ × ℕ)) : IndexedHeap α :=
  swaps.foldl (fun h p => if p.1 < n ∧ p.2 < n then h.swap p.1 p.2 else h) h

def heapPush (h : IndexedHeap α) (a : α) (swaps : List (ℕ × ℕ)) : IndexedHeap α :=
  (h.push a).fix (h.items.length + 1) swaps

def heapPop (h : IndexedHeap α) (swaps : List (ℕ × ℕ)) : Option (α × IndexedHeap α) :=
  ((h.swap 0 (h.items.length - 1)).fix (h.items.length - 1) swaps).pop

def heapRemove (h : IndexedHeap α) (i : ℕ) (swaps : List (ℕ × ℕ)) : Option (α × IndexedHeap α) :=
  if h.items.length - 1 ≠ i then
    ((h.swap i (h.items.length - 1)).fix (h.items.length - 1) swaps).pop
  else h.pop

/-- The elements from place `n` on have stayed. -/
structure Reordered (n : ℕ) (h h' : IndexedHeap α) : Prop where
  placed : h'.Placed
  perm : h'.items ~ h.items
  rest : ∀ k, n ≤ k → h'.items[k]? = h.items[k]?

variable {i j n : ℕ} {swaps : List (ℕ × ℕ)}

theorem Placed.swap (hp : h.Placed) (hi : i < n) (hj : j < n) : Reordered n h (h.swap i j) := by
  unfold IndexedHeap.swap
  split
  next a b ha hb =>
    have hia := hp.index i a ha
    have hjb := hp.index j b hb
    obtain ⟨hilt, hgeta⟩ := List.getElem?_eq_some_iff.mp ha
    obtain ⟨hjlt, hgetb⟩ := List.getElem?_eq_some_iff.mp hb
    have hperm : (h.items.set i b).set j a ~ h.items := by
      rw [← hgeta, ← hgetb]
      exact set_set_perm hilt hjlt
    refine ⟨⟨?_, ?_⟩, hperm, ?_⟩
    · intro k c hk
      change ((h.items.set i b).set j a)[k]? = some c at hk
      show update (update h.index b i) a j c = k
      by_cases hkj : k = j
      · rw [hkj, getElem?_set_self (by simpa using hjlt)] at hk
        rw [← some.inj hk, update_self, hkj]
      rw [getElem?_set_ne (Ne.symm hkj)] at hk
      by_cases hki : k = i
      · rw [hki, getElem?_set_self hilt] at hk
        rw [← some.inj hk, update_of_ne (by grind), update_self, hki]
      · rw [getElem?_set_ne (Ne.symm hki)] at hk
        have hkc := hp.index k c hk
        rw [update_of_ne (by grind), update_of_ne (by grind), hkc]
    · intro c hc
      have hc' : c ∉ h.items := fun hmem => hc (hperm.mem_iff.mpr hmem)
      have hca : c ≠ a := fun heq => hc' (heq ▸ mem_of_getElem? ha)
      have hcb : c ≠ b := fun heq => hc' (heq ▸ mem_of_getElem? hb)
      show update (update h.index b i) a j c = -1
      rw [update_of_ne hca, update_of_ne hcb, hp.absent c hc']
    · intro k hk
      show ((h.items.set i b).set j a)[k]? = _
      rw [getElem?_set_ne (by omega), getElem?_set_ne (by omega)]
  · exact ⟨hp, .refl _, fun _ _ => rfl⟩

theorem Placed.fix (hp : h.Placed) : Reordered n h (h.fix n swaps) := by
  induction swaps generalizing h with
  | nil => exact ⟨hp, .refl _, fun _ _ => rfl⟩
  | cons p swaps ih =>
    show Reordered n h ((if p.1 < n ∧ p.2 < n then h.swap p.1 p.2 else h).fix n swaps)
    split
    next hlt =>
      have hswap := hp.swap hlt.1 hlt.2
      have hrest := ih hswap.placed
      exact ⟨hrest.placed, hrest.perm.trans hswap.perm,
        fun k hk => (hrest.rest k hk).trans (hswap.rest k hk)⟩
    · exact ih hp

theorem Placed.heapPush (hp : h.Placed) (ha : a ∉ h.items) :
    (h.heapPush a swaps).Placed ∧ (h.heapPush a swaps).items ~ a :: h.items := by
  have hpush : (h.push a).Placed := by
    constructor
    · intro i b hi
      show update h.index a h.items.length b = i
      obtain hi | ⟨rfl, rfl⟩ : h.items[i]? = some b ∨ i = h.items.length ∧ b = a := by
        change (h.items ++ [a])[i]? = some b at hi
        grind
      · have hne : b ≠ a := fun heq => ha (heq ▸ mem_of_getElem? hi)
        rw [update_of_ne hne, hp.index i b hi]
      · rw [update_self]
    · intro b hb
      change b ∉ h.items ++ [a] at hb
      show update h.index a h.items.length b = -1
      rw [update_of_ne (by grind), hp.absent b (by grind)]
  have hfix : Reordered _ (h.push a) (h.heapPush a swaps) := hpush.fix
  exact ⟨hfix.placed, hfix.perm.trans (perm_append_singleton a h.items)⟩

/-- An element has been taken out. -/
def TakesOut (h : IndexedHeap α) (a : α) (r : Option (α × IndexedHeap α)) : Prop :=
  ∃ h', r = some (a, h') ∧ h'.Placed ∧ h.items ~ a :: h'.items

theorem Placed.pop (hp : h.Placed) (ha : h.items[h.items.length - 1]? = some a) :
    h.TakesOut a h.pop := by
  rw [← getLast?_eq_getElem?] at ha
  have hitems := dropLast_append_getLast? a ha
  have hlen : h.items.dropLast.length = h.items.length - 1 := length_dropLast
  have hindex := hp.index _ a (getLast?_eq_getElem? ▸ ha)
  refine ⟨⟨h.items.dropLast, update h.index a (-1)⟩, by rw [IndexedHeap.pop, ha]; rfl, ⟨?_, ?_⟩, ?_⟩
  · intro i b hi
    have hlt : i < h.items.dropLast.length := (List.getElem?_eq_some_iff.mp hi).1
    have hib := hp.index i b (by rw [← hitems, getElem?_append_left hlt]; exact hi)
    show update h.index a (-1) b = i
    have hne : b ≠ a := by
      rintro rfl
      omega
    rw [update_of_ne hne, hib]
  · intro b hb
    show update h.index a (-1) b = -1
    by_cases hba : b = a
    · rw [hba, update_self]
    · rw [update_of_ne hba]
      exact hp.absent b (by rw [← hitems]; simpa [hba] using hb)
  · have hperm := perm_append_singleton a h.items.dropLast
    rwa [hitems] at hperm

theorem Placed.takesOut (hp : h.Placed) (ha : h.items[i]? = some a) :
    h.TakesOut a ((h.swap i (h.items.length - 1)).fix (h.items.length - 1) swaps).pop := by
  have hi := (List.getElem?_eq_some_iff.mp ha).1
  have hswap := hp.swap (n := h.items.length) hi (j := h.items.length - 1) (by omega)
  have hfix : Reordered (h.items.length - 1) _ (IndexedHeap.fix _ _ swaps) := hswap.placed.fix
  have hlen := (hfix.perm.trans hswap.perm).length_eq
  have hlast : ((h.swap i (h.items.length - 1)).fix (h.items.length - 1) swaps).items[
      h.items.length - 1]? = some a := by
    have hlt : h.items.length - 1 < h.items.length := by omega
    rw [hfix.rest _ (Nat.le_refl _), IndexedHeap.swap, ha, getElem?_eq_getElem hlt]
    show ((h.items.set i _).set (h.items.length - 1) a)[h.items.length - 1]? = some a
    exact getElem?_set_self (by rwa [length_set])
  obtain ⟨h', hpop, hp', hperm⟩ := hfix.placed.pop (by rw [hlen]; exact hlast)
  exact ⟨h', hpop, hp', (hfix.perm.trans hswap.perm).symm.trans hperm⟩

theorem Placed.heapPop (hp : h.Placed) (ha : h.items[0]? = some a) :
    h.TakesOut a (h.heapPop swaps) := hp.takesOut ha

theorem Placed.heapRemove (hp : h.Placed) (ha : h.items[i]? = some a) :
    h.TakesOut a (h.heapRemove i swaps) := by
  unfold IndexedHeap.heapRemove
  split
  · exact hp.takesOut ha
  next heq =>
    rw [not_not] at heq
    exact hp.pop (heq ▸ ha)

end IndexedHeap

end RanGame
