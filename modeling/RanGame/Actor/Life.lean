import RanGame.Actor.Mailbox

/-!
# The life of an actor, seen from outside

What the server needs to know of a process: whether it runs, is stopping, or has gone from the
engine's table, one after the other.
-/

namespace RanGame.Actor

inductive Life
  | unborn
  | running
  /-- `beginDrain` has been called. -/
  | stopping
  | finished
  deriving DecidableEq

def Life.next : Life → Option Life
  | .running => some .stopping
  | .stopping => some .finished
  | _ => none

namespace Process

variable {n : ℕ} {pol : Policy} {s s' : Process n}

def life (s : Process n) : Life :=
  if s.listed then if s.stopping then .stopping else .running else .finished

/-- What is about to be deleted is stopping, and what is not in the table is deleted. -/
structure Stages (s : Process n) : Prop where
  stopping : s.finished = true → s.stopping = true
  finished : s.run = .stopped ∨ s.run = .deleting ∨ s.run = .gone → s.finished = true
  listed : s.listed = false → s.run = .gone

theorem stages_spawn (clock : ℤ) : (spawn n clock).Stages where
  stopping := by simp [spawn]
  finished := by simp [spawn]
  listed := by simp [spawn]

theorem life_spawn (clock : ℤ) : (spawn n clock).life = .running := rfl

theorem safeCallEnd_listed (panicked : Bool) : (s.safeCallEnd panicked).listed = s.listed := by
  obtain ⟨_, _, _, h⟩ := s.safeCallEnd_eq panicked
  rw [h]

theorem safeCallEnd_stopping {panicked : Bool} (h : s.stopping = true) :
    (s.safeCallEnd panicked).stopping = true := by
  unfold safeCallEnd
  split
  · split
    · rfl
    · exact h
  · exact h

theorem Stages.step (h : s.Stages) {a : ProcessAct n} (hstep : s.step pol a = some s') :
    s'.Stages := by
  -- a goroutine that moves on is in the table
  have listed : s.run ≠ .gone → s.listed = false → ∀ {p : Prop}, p := by
    intro hrun hl
    exact absurd (h.listed hl) hrun
  cases happens_of_step hstep with
  | setStopping | ctxStop | kick => exact ⟨fun _ => rfl, h.finished, h.listed⟩
  | receive hrun => refine ⟨h.stopping, by simp, fun hl => listed (by simp [hrun]) hl⟩
  | initEnd hrun =>
    refine ⟨?_, ?_, ?_⟩
    · intro hf
      exact safeCallEnd_stopping (h.stopping (by simpa using hf))
    · rw [goTo_run]
      split <;> simp
    · intro hl
      exact listed (by simp [hrun]) (by simpa [safeCallEnd_listed] using hl)
  | @handleEnd i recv panicked hrun =>
    refine ⟨?_, ?_, ?_⟩
    · intro hf
      exact safeCallEnd_stopping (h.stopping (by simpa using hf))
    · rw [goTo_run]
      rcases recv with _ | left | _
      · simp only [afterHandle]
        split <;> simp
      · simp only [afterHandle]
        split <;> simp
      · simp [afterHandle]
    · intro hl
      exact listed (by simp [hrun]) (by simpa [safeCallEnd_listed] using hl)
  | signal hrun | drainEnd hrun => exact ⟨h.stopping, by simp, fun hl => listed (by simp [hrun]) hl⟩
  | batchEnd hrun =>
    refine ⟨h.stopping, ?_, fun hl => listed (by simp [hrun]) hl⟩
    rw [goTo_run]
    split <;> simp
  | finish hrun => exact ⟨fun _ => rfl, fun _ => rfl, fun hl => listed (by simp [hrun]) hl⟩
  | onStopEnd hrun =>
    have hf := h.finished (.inl hrun)
    refine ⟨fun _ => safeCallEnd_stopping (h.stopping hf), fun _ => by simpa using hf, ?_⟩
    intro hl
    exact listed (by simp [hrun]) (by simpa [safeCallEnd_listed] using hl)
  | delete hrun => exact ⟨h.stopping, fun _ => h.finished (.inr (.inl hrun)), fun _ => rfl⟩
  | _ => exact { h with }

theorem life_of_stopping (hl : s'.listed = s.listed) (hs : s.stopping = true → s'.stopping = true) :
    s'.life = s.life ∨ s.life.next = some s'.life := by
  unfold life
  rw [hl]
  rcases s.listed with _ | _
  · exact .inl rfl
  · rcases h : s.stopping with _ | _
    · rcases s'.stopping with _ | _
      · exact .inl rfl
      · exact .inr rfl
    · rw [hs h]
      exact .inl rfl

/-- **A step takes an actor to the next stage of its life at most.** -/
theorem life_of_step (h : s.Stages) {a : ProcessAct n} (hstep : s.step pol a = some s') :
    s'.life = s.life ∨ s.life.next = some s'.life := by
  cases happens_of_step hstep with
  | setStopping | ctxStop | kick | finish => exact life_of_stopping rfl fun _ => rfl
  | initEnd | handleEnd | onStopEnd =>
    exact life_of_stopping (safeCallEnd_listed _) safeCallEnd_stopping
  | delete hrun =>
    have hstop := h.stopping (h.finished (.inr (.inl hrun)))
    have hlisted : s.listed = true := by
      by_contra hl
      have := h.listed (by simpa using hl)
      rw [hrun] at this
      cases this
    right
    simp [life, hstop, hlisted, Life.next]
  | _ => exact .inl rfl

end Process

end RanGame.Actor
