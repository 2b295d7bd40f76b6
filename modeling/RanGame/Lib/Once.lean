import RanGame.Lib.Machine

/-!
# Doing something at most once

A component keeps a flag and a log. Every step leaves both alone, or raises the flag and adds one
batch to the log. So the log of a run from an empty one, with the flag down, holds nothing or a
single batch (`batch_of_run`).
-/

namespace RanGame.Once

open Machine

variable {σ β : Type*}

/-- What a part of a handler does: nothing, or, the flag being down, a batch that meets `S`. -/
inductive Turn (done : σ → Bool) (log : σ → List β) (S : List β → Prop) (s s' : σ) : Prop
  | quiet (hdone : done s' = done s) (hlog : log s' = log s)
  | batch (hopen : done s = false) (hdone : done s' = true) {l : List β} (hl : S l)
      (hlog : log s' = log s ++ l)

variable {done : σ → Bool} {log : σ → List β} {S : List β → Prop} {s s' : σ}

/-- Nothing has been done while the flag is down, and at most one batch at all. -/
structure Done (done : σ → Bool) (log : σ → List β) (S : List β → Prop) (s : σ) : Prop where
  nothing : done s = false → log s = []
  once : log s = [] ∨ S (log s)

theorem Done.turn (h : Done done log S s) (ht : Turn done log S s s') : Done done log S s' := by
  cases ht with
  | quiet hdone hlog =>
    refine ⟨fun hs => ?_, ?_⟩
    · rw [hlog]
      exact h.nothing (hdone ▸ hs)
    · rw [hlog]
      exact h.once
  | batch hopen hdone hl hlog =>
    rw [h.nothing hopen, List.nil_append] at hlog
    refine ⟨fun hs => ?_, .inr (hlog ▸ hl)⟩
    rw [hdone] at hs
    cases hs

/-- **At most once.** If every step is a turn, a run does nothing, or one batch. -/
theorem batch_of_run {α : Type*} {step : σ → α → Option σ} {I : σ → Prop}
    (hstep : ∀ s a s', I s → step s a = some s' → Turn done log S s s' ∧ I s') {acts : List α}
    (hlog : log s = []) (hinit : I s) (hrun : run step s acts = some s') :
    log s' = [] ∨ S (log s') := by
  have hdone : Done done log S s' ∧ I s' := by
    refine invariant_of_run (I := fun s => Done done log S s ∧ I s) ?_
      ⟨⟨fun _ => hlog, .inl hlog⟩, hinit⟩ along_true hrun
    intro s a s' hs _ hstep'
    obtain ⟨hturn, hinv⟩ := hstep s a s' hs.2 hstep'
    exact ⟨hs.1.turn hturn, hinv⟩
  exact hdone.1.once

end RanGame.Once
