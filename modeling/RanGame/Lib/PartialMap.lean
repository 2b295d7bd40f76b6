import Mathlib.Logic.Function.Basic

/-!
# Partial maps with compare-and-delete

A partial map is a function to `Option`. An entry is set, deleted, or deleted only if it still holds
the value one expects. Each lemma says exactly which entries are left.
-/

namespace RanGame

open Function

abbrev PartialMap (K V : Type*) := K → Option V

namespace PartialMap

variable {K V : Type*} [DecidableEq K]

def insert (m : PartialMap K V) (k : K) (v : V) : PartialMap K V := update m k (some v)

def erase (m : PartialMap K V) (k : K) : PartialMap K V := update m k none

/-- The map with the entry at `k` deleted if it is `v`. -/
def eraseIf [DecidableEq V] (m : PartialMap K V) (k : K) (v : V) : PartialMap K V :=
  if m k = some v then m.erase k else m

variable {m : PartialMap K V} {k j : K} {v w : V}

@[simp] theorem insert_self : m.insert k v k = some v := update_self ..

theorem insert_of_ne (h : j ≠ k) : m.insert k v j = m j := update_of_ne h ..

@[simp] theorem erase_self : m.erase k k = none := update_self ..

theorem erase_of_ne (h : j ≠ k) : m.erase k j = m j := update_of_ne h ..

theorem insert_eq_some : m.insert k v j = some w ↔ j = k ∧ v = w ∨ j ≠ k ∧ m j = some w := by
  by_cases h : j = k
  · subst h; simp
  · simp [insert_of_ne h, h]

theorem erase_eq_some : m.erase k j = some w ↔ j ≠ k ∧ m j = some w := by
  by_cases h : j = k
  · subst h; simp
  · simp [erase_of_ne h, h]

theorem eraseIf_eq_some [DecidableEq V] :
    m.eraseIf k v j = some w ↔ m j = some w ∧ ¬ (j = k ∧ w = v) := by
  unfold eraseIf
  split
  next hk =>
    rw [erase_eq_some]
    constructor
    · rintro ⟨hj, hm⟩
      exact ⟨hm, fun h => hj h.1⟩
    · rintro ⟨hm, hne⟩
      refine ⟨fun hj => hne ⟨hj, ?_⟩, hm⟩
      subst hj
      exact Option.some.inj (hm.symm.trans hk)
  next hk =>
    refine ⟨fun hm => ⟨hm, ?_⟩, fun h => h.1⟩
    rintro ⟨rfl, rfl⟩
    exact hk hm

end PartialMap

end RanGame
