import Mathlib.Data.List.Basic

/-!
# One-time tickets

Holders each have a current ticket, which is exchanged for a fresh one by presenting it: the
exchange compares it with the current ticket, replaces that and records it as spent. As long as
issued tickets never repeat, a ticket can be spent once. A holder without a ticket has the blank
one.
-/

namespace RanGame

open Function

variable {X Y T : Type*}

/-- The current tickets of `X`, the tickets issued so far, and the tickets spent by `Y`. -/
structure Tickets (blank : T) (current : X → T) (issued : List T) (spent : Y → Option T) :
    Prop where
  blank_issued : blank ∈ issued
  current_issued : ∀ x, current x ∈ issued
  distinct : ∀ x y, current x = current y → current x ≠ blank → x = y
  spent_issued : ∀ i, ∀ t ∈ spent i, t ∈ issued
  retired : ∀ i, ∀ t ∈ spent i, ∀ x, current x ≠ t
  unique : ∀ i j, ∀ t ∈ spent i, t ∈ spent j → i = j

namespace Tickets

variable {blank t : T} {current : X → T} {issued : List T} {spent : Y → Option T}

theorem initial (blank : T) : Tickets blank (fun _ : X => blank) [blank] fun _ : Y => none where
  blank_issued := List.mem_singleton_self _
  current_issued := fun _ => List.mem_singleton_self _
  distinct := fun _ _ _ hne => absurd rfl hne
  spent_issued := by simp
  retired := by simp
  unique := by simp

variable (h : Tickets blank current issued spent)

include h

theorem ne_of_fresh (hfresh : t ∉ issued) (x : X) : current x ≠ t := by
  rintro rfl
  exact hfresh (h.current_issued x)

theorem issue (t : T) : Tickets blank current (t :: issued) spent where
  __ := h
  blank_issued := List.mem_cons_of_mem _ h.blank_issued
  current_issued := fun x => List.mem_cons_of_mem _ (h.current_issued x)
  spent_issued := fun i t ht => List.mem_cons_of_mem _ (h.spent_issued i t ht)

theorem renew [DecidableEq X] (hfresh : t ∉ issued) (x : X) :
    Tickets blank (update current x t) (t :: issued) spent := by
  refine ⟨List.mem_cons_of_mem _ h.blank_issued, ?_, ?_, ?_, ?_, h.unique⟩
  · intro y
    by_cases hy : y = x
    · subst hy
      simp
    · rw [update_of_ne hy]
      exact List.mem_cons_of_mem _ (h.current_issued y)
  · intro y z heq hne
    by_cases hy : y = x
    · by_cases hz : z = x
      · rw [hy, hz]
      · subst hy
        rw [update_self, update_of_ne hz] at heq
        exact absurd heq.symm (h.ne_of_fresh hfresh z)
    · rw [update_of_ne hy] at heq hne
      by_cases hz : z = x
      · subst hz
        rw [update_self] at heq
        exact absurd heq (h.ne_of_fresh hfresh y)
      · rw [update_of_ne hz] at heq
        exact h.distinct y z heq hne
  · intro i u hu
    exact List.mem_cons_of_mem _ (h.spent_issued i u hu)
  · intro i u hu y
    by_cases hy : y = x
    · subst hy
      rw [update_self]
      rintro rfl
      exact hfresh (h.spent_issued i t hu)
    · rw [update_of_ne hy]
      exact h.retired i u hu y

theorem renewed_ne [DecidableEq X] (hfresh : t ∉ issued) {x : X} (hx : current x ≠ blank) (y : X) :
    update current x t y ≠ current x := by
  by_cases hy : y = x
  · subst hy
    rw [update_self]
    exact (h.ne_of_fresh hfresh y).symm
  · rw [update_of_ne hy]
    intro heq
    exact hy (h.distinct y x heq (heq ▸ hx))

theorem spend [DecidableEq Y] (hissued : t ∈ issued) (hcurrent : ∀ x, current x ≠ t)
    (hspent : ∀ i, t ∉ spent i) (i : Y) :
    Tickets blank current issued (update spent i (some t)) := by
  -- a ticket spent afterwards is the new one or was spent before
  have key : ∀ j, ∀ u ∈ update spent i (some t) j, j = i ∧ u = t ∨ u ∈ spent j := by
    intro j u hu
    by_cases hj : j = i
    · subst hj
      rw [update_self] at hu
      exact .inl ⟨rfl, (Option.some.inj hu).symm⟩
    · rw [update_of_ne hj] at hu
      exact .inr hu
  refine ⟨h.blank_issued, h.current_issued, h.distinct, ?_, ?_, ?_⟩
  · intro j u hu
    rcases key j u hu with ⟨-, rfl⟩ | hu
    · exact hissued
    · exact h.spent_issued j u hu
  · intro j u hu
    rcases key j u hu with ⟨-, rfl⟩ | hu
    · exact hcurrent
    · exact h.retired j u hu
  · intro j k u hj hk
    rcases key j u hj with ⟨rfl, rfl⟩ | hj'
    · rcases key k u hk with ⟨rfl, -⟩ | hk'
      · rfl
      · exact absurd hk' (hspent k)
    · rcases key k u hk with ⟨rfl, rfl⟩ | hk'
      · exact absurd hj' (hspent j)
      · exact h.unique j k u hj' hk'

end Tickets

end RanGame
