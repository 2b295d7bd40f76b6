import Mathlib.Data.List.Nodup
import RanGame.Actor.Process

/-!
# Told and handled

Envelopes are handled in the order in which they entered the mailbox, each at most once. But a
goroutine that finds itself stopping after `Init`, or in a batch, leaves the rest of the mailbox,
and a `Tell` may send after it has looked there for the last time.
-/

namespace RanGame.Actor

variable {n : ℕ}

/-- Has the goroutine looked into the mailbox for the last time? -/
def Goroutine.over : Goroutine n → Bool
  | .returned | .stopped | .deleting | .gone => true
  | _ => false

def Goroutine.inBatch : Goroutine n → Bool
  | .handling _ (.batch _) => true
  | _ => false

namespace Process

open List

variable {pol : Policy} {s s' : Process n}

/-- The mailbox is empty when the goroutine finds itself stopping after `Init` or in a batch, and
stays so. -/
def Emptied (pol : Policy) (s : Process n) : ProcessAct n → Prop
  | .initEnd panicked => (s.safeCallEnd panicked).stopping = true → s.mb = []
  | .handleEnd panicked =>
    s.run.inBatch = true → (s.safeCallEnd panicked).stopping = true → s.mb = []
  | .batchEnd => s.stopping = true → s.mb = []
  | .send _ | .unblock _ => s.mb.length < pol.capacity → s.run.over = false
  | _ => True

instance (a : ProcessAct n) : Decidable (s.Emptied pol a) := by
  cases a <;> unfold Emptied <;> infer_instance

/-- The mailbox is a queue, and the goroutine works through it until it is over. -/
structure Queued (s : Process n) : Prop where
  entered : s.entered = s.handled ++ s.mb
  told : ∀ i, i ∈ s.entered ↔ s.tells i = .returned none
  nodup : s.entered.Nodup
  current : ∀ i ∈ s.run.current, i ∈ s.handled
  finished : s.finished = true → s.run.over = true

theorem queued_spawn (clock : ℤ) : (spawn n clock).Queued where
  entered := rfl
  told := by simp [spawn]
  nodup := nodup_nil
  current := by simp [spawn, Goroutine.current]
  finished := by simp [spawn]

theorem safeCallEnd_eq (s : Process n) (panicked : Bool) : ∃ panics stopSig stopping,
    s.safeCallEnd panicked =
      { s with panics := panics, stopSig := stopSig, stopping := stopping } := by
  unfold safeCallEnd
  split
  · split
    · exact ⟨_, _, _, rfl⟩
    · exact ⟨_, s.stopSig, s.stopping, rfl⟩
  · exact ⟨s.panics, s.stopSig, s.stopping, rfl⟩

@[simp] theorem safeCallEnd_mb (panicked : Bool) : (s.safeCallEnd panicked).mb = s.mb := by
  obtain ⟨_, _, _, h⟩ := s.safeCallEnd_eq panicked
  rw [h]

@[simp] theorem safeCallEnd_tells (panicked : Bool) :
    (s.safeCallEnd panicked).tells = s.tells := by
  obtain ⟨_, _, _, h⟩ := s.safeCallEnd_eq panicked
  rw [h]

@[simp] theorem safeCallEnd_entered (panicked : Bool) :
    (s.safeCallEnd panicked).entered = s.entered := by
  obtain ⟨_, _, _, h⟩ := s.safeCallEnd_eq panicked
  rw [h]

@[simp] theorem safeCallEnd_handled (panicked : Bool) :
    (s.safeCallEnd panicked).handled = s.handled := by
  obtain ⟨_, _, _, h⟩ := s.safeCallEnd_eq panicked
  rw [h]

@[simp] theorem safeCallEnd_finished (panicked : Bool) :
    (s.safeCallEnd panicked).finished = s.finished := by
  obtain ⟨_, _, _, h⟩ := s.safeCallEnd_eq panicked
  rw [h]

theorem afterHandle_calling (recv : Receive) : (s.afterHandle pol recv).calling = false := by
  rcases recv with _ | left | _
  · simp only [afterHandle]
    split <;> rfl
  · simp only [afterHandle]
    split <;> rfl
  · rfl

theorem current_of_calling {g : Goroutine n} (h : g.calling = false) : g.current = none := by
  cases g with
  | handling i recv => cases h
  | _ => rfl

theorem afterHandle_current (recv : Receive) : (s.afterHandle pol recv).current = none :=
  current_of_calling (afterHandle_calling recv)

variable {panicked : Bool} {a : ProcessAct n} {i : Fin n}

theorem calling_initEnd (h : s.step pol (.initEnd panicked) = some s') :
    s'.run.calling = false := by
  cases happens_of_step h with
  | initEnd hrun =>
    rw [goTo_run]
    split <;> rfl

theorem calling_handleEnd (h : s.step pol (.handleEnd panicked) = some s') :
    s'.run.calling = false := by
  cases happens_of_step h with
  | handleEnd hrun => exact afterHandle_calling _

theorem init_of_step (h : s.step pol a = some s') (hi : s'.run = .init) : s.run = .init := by
  cases happens_of_step h with
  | initEnd hrun => exact hrun
  | handleEnd hrun =>
    have hcalling := calling_handleEnd h
    rw [hi] at hcalling
    cases hcalling
  | batchEnd hrun hend =>
    simp only [goTo_run] at hi
    split at hi <;> cases hi
  | receive | signal | drainEnd | finish | onStopEnd | delete => cases hi
  | _ => exact hi

theorem current_of_step (h : s.step pol a = some s') (hi : s'.run.current = some i) :
    s.run.current = some i ∨ i ∈ s.mb := by
  cases happens_of_step h with
  | receive hrun hmb =>
    right
    cases hi
    rw [hmb]
    exact mem_cons_self ..
  | initEnd hrun =>
    rw [current_of_calling (calling_initEnd h)] at hi
    cases hi
  | handleEnd hrun =>
    rw [current_of_calling (calling_handleEnd h)] at hi
    cases hi
  | batchEnd hrun hend =>
    simp only [goTo_run] at hi
    split at hi <;> cases hi
  | signal | drainEnd | finish | onStopEnd | delete => cases hi
  | _ => exact .inl hi

theorem Queued.of_same (h : s.Queued) (hmb : s'.mb = s.mb) (hent : s'.entered = s.entered)
    (hhand : s'.handled = s.handled) (htells : ∀ i, s'.tells i = .returned none ↔
      s.tells i = .returned none) (hcur : ∀ i ∈ s'.run.current, i ∈ s.run.current)
    (hfin : s'.finished = true → s'.run.over = true) : s'.Queued where
  entered := by rw [hent, hhand, hmb, h.entered]
  told := fun i => by rw [hent, h.told, htells]
  nodup := by rw [hent]; exact h.nodup
  current := fun i hi => by rw [hhand]; exact h.current i (hcur i hi)
  finished := hfin

theorem tells_update {t : Tell} (hi : s.tells i ≠ .returned none) (ht : t ≠ .returned none)
    (j : Fin n) : Function.update s.tells i t j = .returned none ↔ s.tells j = .returned none := by
  by_cases hj : j = i
  · subst hj
    simp [hi, ht]
  · rw [Function.update_of_ne hj]

theorem Queued.enter (h : s.Queued) (hi : s.tells i ≠ .returned none) : (s.enter i).Queued where
  __ := h
  entered := by simp [h.entered]
  told := by
    intro j
    simp only [enter_entered, enter_tells, mem_append, mem_singleton, h.told]
    by_cases hj : j = i
    · subst hj
      simp
    · simp [hj]
  nodup := by
    rw [enter_entered, nodup_append]
    refine ⟨h.nodup, nodup_singleton i, ?_⟩
    rintro j hj k hk rfl
    obtain rfl := mem_singleton.mp hk
    exact hi ((h.told j).mp hj)

theorem Queued.take (h : s.Queued) {rest : List (Fin n)} {recv : Receive} (hmb : s.mb = i :: rest)
    (hover : s.run.over = false) : (s.take i rest recv).Queued where
  __ := h
  entered := by simp [h.entered, hmb]
  current := by simp [Goroutine.current]
  finished := fun hfin => by
    rw [h.finished hfin] at hover
    cases hover

theorem Queued.step (h : s.Queued) (hstep : s.step pol a = some s') : s'.Queued := by
  -- the goroutine is not over, so the process is not finished
  have running : s.run.over = false → s.finished = true → ∀ {p : Prop}, p := by
    intro hover hfin
    rw [h.finished hfin] at hover
    cases hover
  cases happens_of_step hstep with
  | tick | stop | setStopping | shutdown | ctxStop =>
    exact h.of_same rfl rfl rfl (fun _ => .rfl) (fun _ hi => hi) h.finished
  | found hi | notFound hi | drop hi | overflow hi | block hi | kick hi | giveUp hi =>
    exact h.of_same rfl rfl rfl (tells_update (by simp [hi]) (by simp)) (fun _ hi => hi) h.finished
  | enter hi | unblock hi => exact h.enter (by simp [hi])
  | receive hrun hmb => exact h.take hmb (by rw [hrun]; rfl)
  | initEnd hrun =>
    refine h.of_same (by simp) (by simp) (by simp) (by simp) ?_ fun hfin => ?_
    · rw [goTo_run]
      split <;> simp [Goroutine.current]
    · exact running (by rw [hrun]; rfl) (by simpa using hfin)
  | handleEnd hrun =>
    refine h.of_same (by simp) (by simp) (by simp) (by simp) ?_ fun hfin => ?_
    · rw [goTo_run, afterHandle_current]
      simp
    · exact running (by rw [hrun]; rfl) (by simpa using hfin)
  | signal hrun =>
    refine h.of_same rfl rfl rfl (fun _ => .rfl) (by simp [Goroutine.current]) fun hfin => ?_
    exact running (by rw [hrun]; rfl) hfin
  | batchEnd hrun =>
    refine h.of_same rfl rfl rfl (fun _ => .rfl) ?_ fun hfin => ?_
    · rw [goTo_run]
      split <;> simp [Goroutine.current]
    · exact running (by rw [hrun]; rfl) hfin
  | onStopEnd hrun =>
    exact h.of_same (by simp) (by simp) (by simp) (by simp) (by simp [Goroutine.current])
      fun _ => rfl
  | drainEnd | finish | delete =>
    exact h.of_same rfl rfl rfl (fun _ => .rfl) (by simp [Goroutine.current]) fun _ => rfl

/-- The handler of the envelope has ended. -/
def Settled (s : Process n) (i : Fin n) : Prop := i ∈ s.handled ∧ s.run.current ≠ some i

instance (i : Fin n) : Decidable (s.Settled i) := inferInstanceAs (Decidable (_ ∧ _))

theorem settled_of_same (hhand : s'.handled = s.handled) (hcur : s'.run.current = s.run.current)
    (j : Fin n) : s'.Settled j ↔ s.Settled j := by
  rw [Settled, Settled, hhand, hcur]

theorem settled_of_step (hq : s.Queued) (ha : ∀ panicked, a ≠ .handleEnd panicked)
    (hstep : s.step pol a = some s') (j : Fin n) : s'.Settled j ↔ s.Settled j := by
  cases happens_of_step hstep with
  | @receive i rest recv next hrun hmb =>
    have hi : i ∉ s.handled := by
      have hnodup := hq.nodup
      rw [hq.entered, hmb] at hnodup
      intro hmem
      exact (nodup_append.mp hnodup).2.2 i hmem i (mem_cons_self ..) rfl
    simp only [Settled, take_handled, take_run, hrun, Goroutine.current, mem_append, mem_singleton]
    constructor
    · rintro ⟨hj | rfl, hne⟩
      · exact ⟨hj, nofun⟩
      · exact absurd rfl hne
    · rintro ⟨hj, -⟩
      refine ⟨.inl hj, ?_⟩
      rintro ⟨⟩
      exact hi hj
  | initEnd hrun =>
    refine settled_of_same (by simp) ?_ j
    rw [goTo_run, hrun]
    split <;> rfl
  | batchEnd hrun =>
    refine settled_of_same (by rfl) ?_ j
    rw [goTo_run, hrun]
    split <;> rfl
  | onStopEnd hrun => exact settled_of_same (by simp) (by rw [goTo_run, hrun]; rfl) j
  | signal hrun | drainEnd hrun => exact settled_of_same (by rfl) (by rw [goTo_run, hrun]; rfl) j
  | finish hrun | delete hrun =>
    refine settled_of_same (by rfl) ?_ j
    rw [hrun]
    rfl
  | handleEnd => exact absurd rfl (ha _)
  | _ => exact settled_of_same rfl rfl j

theorem settled_handleEnd (hq : s.Queued) (hi : s.run.current = some i)
    (hstep : s.step pol (.handleEnd panicked) = some s') (j : Fin n) :
    s'.Settled j ↔ j = i ∨ s.Settled j := by
  have hmem := hq.current i hi
  cases happens_of_step hstep with
  | handleEnd hrun =>
    simp only [Settled, goTo_run, afterHandle_current, goTo_handled, safeCallEnd_handled, hi]
    constructor
    · rintro ⟨hj, -⟩
      by_cases hji : j = i
      · exact .inl hji
      · exact .inr ⟨hj, fun heq => hji (Option.some.inj heq).symm⟩
    · rintro (rfl | ⟨hj, -⟩)
      · exact ⟨hmem, nofun⟩
      · exact ⟨hj, nofun⟩

/-- **When the goroutine is over, it leaves nothing behind.** -/
theorem emptied_of_step (h : s.run.over = true → s.mb = []) (ha : s.Emptied pol a)
    (hstep : s.step pol a = some s') : s'.run.over = true → s'.mb = [] := by
  cases happens_of_step hstep with
  | enter hi hroom | unblock hi hroom =>
    intro hover
    rw [enter_run, ha hroom] at hover
    cases hover
  | @initEnd panicked hrun =>
    intro hover
    rw [goTo_mb, safeCallEnd_mb]
    refine ha ?_
    by_contra hstop
    simp [hstop, Goroutine.over] at hover
  | @handleEnd i recv panicked hrun =>
    intro hover
    rw [goTo_mb, safeCallEnd_mb]
    rcases recv with _ | left | _
    · rw [goTo_run, afterHandle] at hover
      split at hover <;> cases hover
    · refine ha (by rw [hrun]; rfl) ?_
      by_contra hstop
      simp [hstop, Goroutine.over, afterHandle] at hover
    · cases hover
  | batchEnd hrun =>
    intro hover
    refine ha ?_
    by_contra hstop
    simp [hstop, Goroutine.over] at hover
  | receive | signal =>
    intro hover
    cases hover
  | drainEnd hrun hmb => exact fun _ => hmb
  | finish hrun | delete hrun => exact fun _ => h (by rw [hrun]; rfl)
  | onStopEnd hrun =>
    intro _
    rw [goTo_mb, safeCallEnd_mb]
    exact h (by rw [hrun]; rfl)
  | _ => exact h

variable {acts : List (ProcessAct n)} {clock : ℤ}

theorem queued_of_run (hrun : Machine.run (step pol) (spawn n clock) acts = some s) : s.Queued :=
  Machine.invariant_of_run (fun _ _ _ h _ hstep => h.step hstep) (queued_spawn clock)
    Machine.along_true hrun

theorem emptied_of_run (hrun : Machine.run (step pol) (spawn n clock) acts = some s)
    (hempty : Machine.Along (step pol) (Emptied pol) (spawn n clock) acts) :
    s.run.over = true → s.mb = [] :=
  Machine.invariant_of_run (I := fun s => s.run.over = true → s.mb = [])
    (fun _ _ _ h ha hstep => emptied_of_step h ha hstep) (fun _ => rfl) hempty hrun

/-- **What is told is handled exactly once, in order**, if nothing is left behind. -/
theorem told_handled_once (hrun : Machine.run (step pol) (spawn n clock) acts = some s)
    (hempty : Machine.Along (step pol) (Emptied pol) (spawn n clock) acts) :
    s.handled <+: s.entered ∧
    (∀ i, s.tells i = .returned none → s.handled.count i = 1 ∨
      s.handled.count i = 0 ∧ i ∈ s.mb ∧ s.finished = false) ∧
    (s.finished = true → ∀ i, s.tells i = .returned none → s.handled.count i = 1) := by
  have hq := queued_of_run hrun
  have hover := emptied_of_run hrun hempty
  have honce : ∀ i, s.tells i = .returned none → s.handled.count i + s.mb.count i = 1 := by
    intro i hi
    rw [← count_append, ← hq.entered]
    exact count_eq_one_of_mem hq.nodup ((hq.told i).mpr hi)
  have hdone : s.finished = true → ∀ i, s.tells i = .returned none → s.handled.count i = 1 := by
    intro hfin i hi
    have hmb : s.mb = [] := hover (hq.finished hfin)
    simpa [hmb] using honce i hi
  refine ⟨?_, ?_, hdone⟩
  · rw [hq.entered]
    exact prefix_append ..
  · intro i hi
    have hsum := honce i hi
    by_cases hmem : i ∈ s.mb
    · have hpos : 0 < s.mb.count i := count_pos_iff.mpr hmem
      refine .inr ⟨by omega, hmem, ?_⟩
      by_contra hfin
      have := hdone (by simpa using hfin) i hi
      omega
    · rw [count_eq_zero_of_not_mem hmem] at hsum
      exact .inl hsum

def samplePolicy : Policy := normalizePolicy ⟨1024, some .fullKick, 64⟩

/-- The actor is stopped while it waits, with two envelopes in its mailbox. -/
def stoppedWaitingActs : List (ProcessAct 2) :=
  [.initEnd false, .lookup 0, .lookup 1, .send 0, .send 1, .stop, .setStopping, .signal, .receive,
    .handleEnd false, .receive, .handleEnd false, .drainEnd, .finish]

theorem told_handled_once_stoppedWaiting : ∃ s,
    Machine.run (step samplePolicy) (spawn 2 0) stoppedWaitingActs = some s ∧
      s.finished = true ∧ s.handled.count 0 = 1 ∧ s.handled.count 1 = 1 := by
  obtain ⟨s, hrun, hfin, h0, h1⟩ : ∃ s,
      Machine.run (step samplePolicy) (spawn 2 0) stoppedWaitingActs = some s ∧
        s.finished = true ∧ s.tells 0 = .returned none ∧ s.tells 1 = .returned none :=
    ⟨_, rfl, rfl, rfl, rfl⟩
  obtain ⟨-, -, hdone⟩ := told_handled_once hrun (by decide)
  exact ⟨s, hrun, hfin, hdone hfin 0 h0, hdone hfin 1 h1⟩

/-- The actor is stopped while it handles the second of three envelopes, in a batch. -/
def stoppedInBatchActs : List (ProcessAct 3) :=
  [.initEnd false, .lookup 0, .send 0, .lookup 1, .send 1, .lookup 2, .send 2, .receive,
    .handleEnd false, .receive, .stop, .setStopping, .handleEnd false, .finish, .onStopEnd false,
    .delete]

/-- `Tell` has returned `nil` for the third envelope, and the process has ended. -/
theorem told_not_handled : ∃ s,
    Machine.run (step samplePolicy) (spawn 3 0) stoppedInBatchActs = some s ∧
      s.tells 2 = .returned none ∧ s.finished = true ∧ s.run = .gone ∧ s.handled = [0, 1] :=
  ⟨_, rfl, rfl, rfl, rfl, rfl⟩

end Process

end RanGame.Actor
