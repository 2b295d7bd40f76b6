import RanGame.Storage.Ordering

/-!
# A half-open table is being probed

The breaker of a table turns half open when it lets one write in, and rejects every other write
until that one is reported: by `Trip`, by `OnSuccess`, or by `OnFailure` where its batch was given
up. `Probing` follows the write over these routes. A record that a replay has in hand is still in
the log, so a replay that stops leaves it there.
-/

namespace RanGame.Storage

open Machine Function Worker

namespace TableBreaker

variable {b : TableBreaker} {cooldown now : ℤ} {table t : String}

theorem halfOpen_of_update {states : String → BreakerState} {v : BreakerState}
    (hv : v ≠ .breakerHalfOpen) (h : update states t v table = .breakerHalfOpen) :
    states table = .breakerHalfOpen ∧ table ≠ t := by
  by_cases hne : table = t
  · rw [hne, update_self] at h
    exact absurd h hv
  · rw [update_of_ne hne] at h
    exact ⟨h, hne⟩

theorem halfOpen_of_trip (h : (b.trip now t).states table = .breakerHalfOpen) :
    b.states table = .breakerHalfOpen ∧ table ≠ t :=
  halfOpen_of_update (v := .breakerOpen) (by decide) h

theorem halfOpen_of_onSuccess (h : (b.onSuccess t).states table = .breakerHalfOpen) :
    b.states table = .breakerHalfOpen ∧ table ≠ t :=
  halfOpen_of_update (v := .breakerClosed) (by decide) h

theorem halfOpen_of_onFailure (h : (b.onFailure now t).states table = .breakerHalfOpen) :
    b.states table = .breakerHalfOpen ∧ table ≠ t := by
  rw [onFailure] at h
  split at h
  · exact halfOpen_of_trip h
  next hnot => exact ⟨h, fun heq => hnot (heq ▸ h)⟩

theorem halfOpen_of_allow (h : (b.allow cooldown now t).2.states table = .breakerHalfOpen) :
    b.states table = .breakerHalfOpen ∨ t = table ∧ (b.allow cooldown now t).1 = true := by
  by_cases hne : table = t
  · subst hne
    revert h
    rw [allow]
    split
    · exact .inl
    · exact .inl
    · split
      · exact fun _ => .inr ⟨rfl, rfl⟩
      · exact .inl
  · left
    rw [allow] at h
    split at h
    · exact h
    · exact h
    · split at h
      · exact (update_of_ne hne ..).symm.trans h
      · exact h

theorem allow_of_halfOpen (h : b.states t = .breakerHalfOpen) :
    (b.allow cooldown now t).1 = false := by
  rw [allow, h]

end TableBreaker

/-- The record of a call that the breaker has let in and that has not returned. -/
@[simp] def Call.admitted : Call → Option WalRecord
  | .sending r | .spilling r | .tripping r => some r
  | _ => none

/-- The tables of the writes that the worker still has to report to the breaker. -/
@[simp] def Worker.probes : Worker → List String
  | .draining batch => batch.map (·.record.table)
  | .writing _ todo failed => (todo ++ failed).map (·.record.table)
  | .reopening _ todo reopened => (todo.map (·.record.table)).filter (· ∉ reopened)
  | .replaying todo _ => todo.map (·.record.table)
  | .acking e next => e.record.table :: next.probes
  | .tripping _ next => next.probes
  | _ => []

@[simp] def Worker.Open : Worker → Prop
  | .idle | .draining _ | .writing .. | .reopening .. | .dumping .. | .flushed => True
  | .replaying _ final => final = false
  | .acking _ next | .tripping _ next => next.Open
  | _ => False

namespace Store

/-- A write of the table is pending: admitted, queued, in the worker's hands, or in the log. -/
def Probed (s : Store) (table : String) : Prop :=
  (∃ i, ∃ r ∈ (s.calls i).admitted, r.table = table) ∨ (∃ e ∈ s.queue, e.record.table = table) ∨
    table ∈ s.worker.probes ∨ ∃ e ∈ s.unread, e.record.table = table

/-- The action lets a write of the table past the breaker. -/
def admits (o : Options) (table : String) (s : Store) : Act → Bool
  | .allow i now =>
    match s.calls i with
    | .admitting r => r.table = table && (s.breaker.allow o.breakerCooldown now table).1
    | _ => false
  | _ => false

/-- How many writes of the table the actions let in. -/
def admissions (o : Options) (table : String) : Store → List Act → ℕ
  | _, [] => 0
  | s, a :: l => (s.admits o table a).toNat + ((s.step o a).elim 0 fun s' => admissions o table s' l)

/-- While the store is open, a half-open table has a write pending. -/
structure Probing (s : Store) : Prop where
  closing : s.closing = false
  worker : s.worker.Open
  probed : ∀ table, s.breaker.states table = .breakerHalfOpen → s.Probed table

variable {o : Options} {s s' : Store} {a : Act}

/-- A call moves: what it was about to write is still with it, or has gone somewhere. -/
theorem Probed.client {table : String} (h : s.Probed table) {i : ℕ} {c : Call}
    (hcalls : s'.calls = update s.calls i c) (hqueue : s.queue ⊆ s'.queue)
    (hworker : s'.worker = s.worker) (hunread : s.unread ⊆ s'.unread)
    (hc : ∀ r ∈ (s.calls i).admitted, r.table = table → s'.Probed table) : s'.Probed table := by
  rcases h with ⟨j, r, hr, ht⟩ | ⟨e, he, ht⟩ | h | ⟨e, he, ht⟩
  · by_cases hj : j = i
    · exact hc r (hj ▸ hr) ht
    · refine .inl ⟨j, r, ?_, ht⟩
      rwa [hcalls, update_of_ne hj]
  · exact .inr (.inl ⟨e, hqueue he, ht⟩)
  · exact .inr (.inr (.inl (hworker ▸ h)))
  · exact .inr (.inr (.inr ⟨e, hunread he, ht⟩))

theorem Probing.step (h : s.Probing) (hsub : s.worker.inReplay = true → s.worker.held ⊆ s.wal)
    (ha : a ≠ .close) (hs : s.step o a = some s') : s'.Probing := by
  obtain ⟨hclosing, hw, hprobed⟩ := h
  cases happens_of_step hs with
  | close => exact absurd rfl ha
  | stop hd hc => cases hclosing.symm.trans hc
  | closeTake hd | closeDry hd | closeWrite hd | closeRefused hd | closeBury hd
  | closeAppend _ hd | closeReplay hd | checkDeadline hd | finish hd => simp [hd] at hw
  | syncFailed | syncCall | syncPut | syncReturn => exact ⟨hclosing, hw, hprobed⟩
  | tick hd | dry hd | written hd | dump hd | dumped hd | take hd | full hd | batched hd | write hd
  | writeFailed hd | restore hd | retry hd | giveUp hd | reopenAgain hd | append _ hd =>
    refine ⟨hclosing, by simp_all, fun table ht => ?_⟩
    have hp := hprobed table ht
    simp only [Probed, unread, hd, probes, inReplay, log, land,
      Append.leaves_ok] at hp ⊢
    grind
  | restoreFailed hd | truncate hd =>
    obtain rfl : _ = false := by simpa [hd] using hw
    refine ⟨hclosing, trivial, fun table ht => ?_⟩
    have hp := hprobed table ht
    simp only [Probed, unread, hd, probes, inReplay, land, held,
      forall_const] at hp hsub ⊢
    grind [afterReplay, probes, inReplay]
  | appendFailed _ hd | replay hd =>
    refine ⟨hclosing, by split <;> simp, fun table ht => ?_⟩
    have hp := hprobed table ht
    simp only [Probed, unread, hd, probes, inReplay, log] at hp ⊢
    split <;> grind [probes, inReplay]
  | ack hd =>
    refine ⟨hclosing, by simpa [hd] using hw, fun table ht => ?_⟩
    obtain ⟨ht, hne⟩ := TableBreaker.halfOpen_of_onSuccess ht
    have hp := hprobed table ht
    simp only [Probed, unread, hd, probes, inReplay] at hp ⊢
    grind
  | reopen hd =>
    refine ⟨hclosing, by simp, fun table ht => ?_⟩
    obtain ⟨ht, hne⟩ := TableBreaker.halfOpen_of_onFailure ht
    have hp := hprobed table ht
    simp only [Probed, unread, hd, probes, inReplay] at hp ⊢
    grind
  | workerTrip hd =>
    refine ⟨hclosing, by simpa [hd] using hw, fun table ht => ?_⟩
    obtain ⟨ht, hne⟩ := TableBreaker.halfOpen_of_trip ht
    have hp := hprobed table ht
    simp only [Probed, unread, hd, probes, inReplay] at hp ⊢
    grind
  | callRejected hi | call hi | load hi =>
    refine ⟨hclosing, hw, fun table ht => ?_⟩
    refine (hprobed table ht).client rfl (.refl _) rfl (.refl _) fun r hr => ?_
    simp [hi] at hr
  | @sendFull i r hi =>
    refine ⟨hclosing, hw, fun table ht => ?_⟩
    refine (hprobed table ht).client rfl (.refl _) rfl (.refl _) fun r' hr ht => ?_
    refine .inl ⟨i, r', ?_, ht⟩
    simpa [hi, setCall] using hr
  | @send i r hi =>
    refine ⟨hclosing, hw, fun table ht => ?_⟩
    refine (hprobed table ht).client rfl (List.subset_append_left ..) rfl (.refl _) fun r' hr ht => ?_
    refine .inr (.inl ⟨⟨i, r⟩, by simp, ?_⟩)
    simp_all
  | @spill i r hi hcan hfree =>
    refine ⟨hclosing, hw, fun table ht => ?_⟩
    refine (hprobed table ht).client rfl (.refl _) rfl ?_ fun r' hr ht => ?_
    · simp [unread, hfree, log, setCall]
    · refine .inr (.inr (.inr ⟨⟨i, r⟩, ?_, ?_⟩))
      · simp [unread, hfree, log, setCall]
      · simp_all
  | @spillFailed i r w hi hcan hfree =>
    refine ⟨hclosing, hw, fun table ht => ?_⟩
    refine (hprobed table ht).client rfl (.refl _) rfl ?_ fun r' hr ht => ?_
    · simp [unread, hfree, log, setCall]
    · refine .inl ⟨i, r', ?_, ht⟩
      simpa [hi, setCall] using hr
  | @trip i now r hi =>
    refine ⟨hclosing, hw, fun table ht => ?_⟩
    obtain ⟨ht, hne⟩ := TableBreaker.halfOpen_of_trip ht
    refine (hprobed table ht).client rfl (.refl _) rfl (.refl _) fun r' hr ht => ?_
    simp_all
  | @allow i now r hi =>
    refine ⟨hclosing, hw, fun table ht => ?_⟩
    rcases TableBreaker.halfOpen_of_allow ht with ht | ⟨rfl, hallow⟩
    · refine (hprobed table ht).client rfl (.refl _) rfl (.refl _) fun r' hr => ?_
      simp [hi] at hr
    · refine .inl ⟨i, r, ?_, rfl⟩
      simp [setCall, hallow]

theorem admits_of_halfOpen {table : String} (h : s.breaker.states table = .breakerHalfOpen) :
    s.admits o table a = false := by
  unfold admits
  split
  · split
    · rw [TableBreaker.allow_of_halfOpen h, Bool.and_false]
    · rfl
  · rfl

theorem admissions_of_halfOpen {table : String} {l : List Act}
    (h : Along (step o) (fun s _ => s.breaker.states table = .breakerHalfOpen) s l) :
    s.admissions o table l = 0 := by
  induction l generalizing s with
  | nil => rfl
  | cons a l ih =>
    rw [admissions, admits_of_halfOpen h.1, Bool.toNat_false, Nat.zero_add]
    cases hs : s.step o a with
    | none => rfl
    | some s' => exact ih (h.2 s' hs)

/-- **A half-open table has a write pending**, and lets at most one in until it is half open no
more. A table that rejects is in its cooldown or has a write pending. -/
theorem halfOpen_probed {backend : KeyedStore Key Bytes} {old : List WalRecord} {acts : List Act}
    (hrun : run (step o) (newStore backend old) acts = some s) (hopen : ∀ a ∈ acts, a ≠ .close)
    (table : String) :
    (s.breaker.states table = .breakerHalfOpen → s.Probed table) ∧
      (∀ a l s', s.step o a = some s' →
        Along (step o) (fun s _ => s.breaker.states table = .breakerHalfOpen) s' l →
        s.admissions o table (a :: l) ≤ 1) ∧
      ∀ now, (s.breaker.allow o.breakerCooldown now table).1 = false →
        now - s.breaker.openAt table < o.breakerCooldown ∨ s.Probed table := by
  have hinit : (newStore backend old).Probing := ⟨rfl, trivial, nofun⟩
  obtain ⟨hp, -⟩ := invariant_of_run (I := fun s => s.Probing ∧ s.traffic.Conserved)
    (fun _ _ _ h ha hs => ⟨h.1.step h.2.held_subset ha hs, h.2.step (step_traffic hs)⟩)
    ⟨hinit, conserved_newStore backend old⟩ (along_of_forall_mem hopen) hrun
  refine ⟨hp.probed table, fun a l s' hs hl => ?_, fun now hnow => ?_⟩
  · rw [admissions, hs, Option.elim_some, admissions_of_halfOpen hl, Nat.add_zero]
    exact Bool.toNat_le _
  · rw [TableBreaker.allow] at hnow
    split at hnow
    · cases hnow
    · exact .inr (hp.probed table ‹_›)
    · split at hnow
      · cases hnow
      · exact .inl (not_le.mp ‹_›)

/-- The record can be neither queued nor spilled; after the cooldown the next write is let in. -/
def probeActs : List Act :=
  setActs 0 "bob" [0] ++ setActs 1 "bob" [1] ++ setActs 2 "bob" [2] ++
    [.spill 2 (.failed false), .trip 2 0, .call 3 (.set "players" "bob" (some [3])) 0, .load 3,
      .allow 3 sampleOptions.breakerCooldown]

theorem halfOpen_probed_tripped : ∃ s,
    run (step sampleOptions) (newStore (fun _ => none) []) probeActs = some s ∧
      s.breaker.states "players" = .breakerHalfOpen ∧ s.Probed "players" := by
  obtain ⟨s, hrun, hhalf⟩ : ∃ s,
      run (step sampleOptions) (newStore (fun _ => none) []) probeActs = some s ∧
        s.breaker.states "players" = .breakerHalfOpen := ⟨_, rfl, rfl⟩
  exact ⟨s, hrun, hhalf, (halfOpen_probed hrun (by decide) "players").1 hhalf⟩

end Store

end RanGame.Storage
