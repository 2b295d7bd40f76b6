import Mathlib.Data.List.Induction

/-!
# Last writer wins

A store is a partial map, an update sets or removes one key, and a list of updates is performed from
left to right. Only the last update of each key matters (`performAll_eq_lastWrite`), so an update
may be moved past updates of other keys (`performAll_insert`).
-/

namespace RanGame

open Function

abbrev KeyedStore (K V : Type*) := K → Option V

/-- Set a key, or remove it. -/
structure Update (K V : Type*) where
  key : K
  /-- The value, `none` for a removal. -/
  val : Option V
  deriving DecidableEq, Repr

namespace KeyedStore

variable {K V : Type*} [DecidableEq K]

def perform (s : KeyedStore K V) (u : Update K V) : KeyedStore K V := update s u.key u.val

def performAll (s : KeyedStore K V) (us : List (Update K V)) : KeyedStore K V := us.foldl perform s

/-- What the last update of `k` in `us` leaves there, or `s k` if none of them writes `k`. -/
def lastWrite (s : KeyedStore K V) (us : List (Update K V)) (k : K) : Option V :=
  match us.reverse.find? fun u => u.key = k with
  | some u => u.val
  | none => s k

@[simp] theorem performAll_nil (s : KeyedStore K V) : performAll s [] = s := rfl

theorem performAll_cons (s : KeyedStore K V) (u : Update K V) (us : List (Update K V)) :
    performAll s (u :: us) = performAll (perform s u) us := rfl

theorem performAll_append (s : KeyedStore K V) (us vs : List (Update K V)) :
    performAll s (us ++ vs) = performAll (performAll s us) vs :=
  List.foldl_append ..

theorem performAll_concat (s : KeyedStore K V) (us : List (Update K V)) (u : Update K V) :
    performAll s (us ++ [u]) = perform (performAll s us) u :=
  performAll_append s us [u]

theorem performAll_eq_lastWrite (s : KeyedStore K V) (us : List (Update K V)) (k : K) :
    performAll s us k = lastWrite s us k := by
  induction us using List.reverseRecOn with
  | nil => rfl
  | append_singleton us u ih =>
    rw [performAll_concat, perform, lastWrite, List.reverse_concat, List.find?_cons]
    by_cases hk : u.key = k
    · subst hk; simp
    · rw [update_of_ne (Ne.symm hk), ih, decide_eq_false hk]
      rfl

variable {s t : KeyedStore K V} {us : List (Update K V)} {k : K}

theorem performAll_of_forall_ne (h : ∀ u ∈ us, u.key ≠ k) : performAll s us k = s k := by
  induction us generalizing s with
  | nil => rfl
  | cons u us ih =>
    rw [performAll_cons, ih fun v hv => h v (List.mem_cons_of_mem _ hv), perform,
      update_of_ne (Ne.symm (h u (List.mem_cons_self ..)))]

theorem performAll_congr_of_mem (h : ∃ u ∈ us, u.key = k) :
    performAll s us k = performAll t us k := by
  induction us using List.reverseRecOn with
  | nil => exact absurd h (by simp)
  | append_singleton us u ih =>
    rw [performAll_concat, performAll_concat, perform, perform]
    by_cases hk : u.key = k
    · subst hk; simp
    · rw [update_of_ne (Ne.symm hk), update_of_ne (Ne.symm hk)]
      refine ih ?_
      obtain ⟨v, hv, hvk⟩ := h
      rcases List.mem_append.mp hv with hv | hv
      · exact ⟨v, hv, hvk⟩
      · exact absurd (by simpa using hv : v = u) (by rintro rfl; exact hk hvk)

theorem performAll_congr (us : List (Update K V)) (h : s k = t k) :
    performAll s us k = performAll t us k := by
  by_cases hmem : ∃ u ∈ us, u.key = k
  · exact performAll_congr_of_mem hmem
  · have hne : ∀ u ∈ us, u.key ≠ k := fun u hu hk => hmem ⟨u, hu, hk⟩
    rw [performAll_of_forall_ne hne, performAll_of_forall_ne hne, h]

/-- **An update that nothing overtakes takes effect**, wherever it is performed. -/
theorem performAll_insert {vs : List (Update K V)} {u : Update K V} (h : ∀ v ∈ vs, v.key ≠ u.key) :
    performAll s (us ++ u :: vs) = perform (performAll s (us ++ vs)) u := by
  funext k
  rw [performAll_append, performAll_cons, performAll_append]
  by_cases hk : k = u.key
  · subst hk
    rw [performAll_of_forall_ne h]
    simp [perform]
  · rw [perform, perform, update_of_ne hk]
    exact performAll_congr vs (update_of_ne hk _ _)

/-- An update that none of the others is about may come first or last. -/
theorem performAll_perform {u : Update K V} (h : ∀ v ∈ us, v.key ≠ u.key) :
    performAll (perform s u) us = performAll s (us ++ [u]) := by
  rw [performAll_concat, ← performAll_cons]
  show performAll s ([] ++ u :: us) = perform (performAll s ([] ++ us)) u
  exact performAll_insert h

/-- An update may be performed before its time if it is performed again. -/
theorem performAll_perform_of_mem {u : Update K V} (h : u ∈ us) :
    performAll (perform s u) us = performAll s us := by
  funext k
  by_cases hk : k = u.key
  · exact performAll_congr_of_mem ⟨u, h, hk.symm⟩
  · exact performAll_congr us (update_of_ne hk ..)

end KeyedStore

end RanGame
