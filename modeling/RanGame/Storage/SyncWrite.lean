import RanGame.Storage.Traffic

/-!
# Synchronous writes and the queue

`SetSync` goes to the backend directly. A write to the same key that was accepted earlier and is
still pending is performed later and replaces the newer value. `Flushed` excludes it.
-/

namespace RanGame.Storage

open Function Machine List

namespace Store

variable {o : Options} {s s' : Store}

/-- When a `SetSync` returns, no write to its key accepted before is pending. -/
def Flushed (s : Store) (a : Act) : Prop :=
  ∀ i ∈ a.returning, ∀ e ∈ s.queue ++ s.worker.held ++ s.wal, e.id ∉ (s.syncs i).before

instance (s : Store) (a : Act) : Decidable (s.Flushed a) :=
  inferInstanceAs (Decidable (∀ i ∈ a.returning, _))

theorem mem_pending {e : Entry} : s.traffic.Pending e ↔ e ∈ s.queue ++ s.worker.held ++ s.wal := by
  simp [Traffic.Pending, traffic]

/-- Synchronous calls came after accepted ones, and no superseded one is pending. -/
structure Superseding (s : Store) : Prop where
  before_accepted : ∀ i, ∀ j ∈ (s.syncs i).before, ∃ e ∈ s.accepted, e.id = j
  superseded_accepted : ∀ j ∈ s.superseded, ∃ e ∈ s.accepted, e.id = j
  not_pending : ∀ e, s.traffic.Pending e → e.id ∉ s.superseded
  late_eq : s.late = []

theorem sync_of_step {a : Act} {i : ℕ} (ha : a.sync = some i) (h : s.step o a = some s') :
    ∃ c, s'.syncs = update s.syncs i c ∧
      (c.before ⊆ (s.syncs i).before ∨ c.before ⊆ s.accepted.map Entry.id) := by
  cases happens_of_step h with
  | syncFailed | syncReturn =>
    cases ha
    exact ⟨_, rfl, .inr (nil_subset _)⟩
  | syncCall =>
    cases ha
    exact ⟨_, rfl, .inr (map_subset _ (filter_sublist).subset)⟩
  | syncPut hi =>
    cases ha
    refine ⟨_, rfl, .inl ?_⟩
    rw [hi]
    split
    · exact List.Subset.refl _
    · exact nil_subset _
  | _ => cases ha

theorem accepted_subset_of_step {a : Act} (h : s.step o a = some s') :
    s.accepted ⊆ s'.accepted := by
  rcases ha : a.client with _ | i
  · rw [(calls_of_step ha h).2]
    exact List.Subset.refl _
  · obtain ⟨-, c, -, hacc⟩ := call_of_step ha h
    rw [hacc]
    exact subset_append_left ..

/-- Writes become superseded when a `SetSync` returns, and then no write moves. -/
theorem superseded_of_step {a : Act} (h : s.step o a = some s') : s'.superseded = s.superseded ∨
      ∃ i ∈ a.returning, s'.superseded = s.superseded ++ (s.syncs i).before ∧
        s'.traffic = s.traffic := by
  cases happens_of_step h with
  | syncReturn hi => exact .inr ⟨_, rfl, by rw [hi]; rfl, rfl⟩
  | _ => exact .inl rfl

theorem late_of_land {e : Entry} (he : e ∈ s.worker.held) (reply : Reply) :
    (s.land e reply).late = s.late ∨ ∃ e, s.traffic.Pending e ∧ e.id ∈ s.superseded := by
  by_cases hsup : e.id ∈ s.superseded
  · exact .inr ⟨e, .inr (.inl he), hsup⟩
  · left
    simp [land, hsup]

theorem late_of_step {a : Act} (h : s.step o a = some s') :
    s'.late = s.late ∨ ∃ e, s.traffic.Pending e ∧ e.id ∈ s.superseded := by
  cases happens_of_step h with
  | write hw | writeFailed hw | restore hw | restoreFailed hw | closeWrite hw | closeRefused hw
  | closeBury hw => exact late_of_land (by simp [hw]) _
  | _ => exact .inl rfl

/-- A superseded write does not become pending again: its call was accepted long ago. -/
theorem Superseding.step {a : Act} (hs : s.Superseding) (hr : s.Registered) (ha : s.Flushed a)
    (h : s.step o a = some s') : s'.Superseding := by
  have hsub := accepted_subset_of_step h
  have grow : ∀ {j}, (∃ e ∈ s.accepted, e.id = j) → ∃ e ∈ s'.accepted, e.id = j :=
    fun ⟨e, he, hej⟩ => ⟨e, hsub he, hej⟩
  have hold : ∀ e, s'.traffic.Pending e → e.id ∉ s.superseded := by
    intro e he
    rcases (step_traffic h).pending he with hpend | henter
    · exact hs.not_pending e hpend
    · intro hsup
      obtain ⟨e', he', hid⟩ := hs.superseded_accepted _ hsup
      have hcall := (hr e').mpr he'
      rw [hid] at hcall
      rcases henter with henter | henter <;> simp [henter] at hcall
  refine ⟨fun i j hj => ?_, fun j hj => ?_, fun e he => ?_, ?_⟩
  · rcases hsync : a.sync with _ | k
    · rw [syncs_of_step hsync h] at hj
      exact grow (hs.before_accepted i j hj)
    · obtain ⟨c, hsyncs, hc⟩ := sync_of_step hsync h
      rw [hsyncs] at hj
      by_cases hik : i = k
      · subst hik
        rw [update_self] at hj
        rcases hc with hc | hc
        · exact grow (hs.before_accepted i j (hc hj))
        · exact grow (by simpa using hc hj)
      · rw [update_of_ne hik] at hj
        exact grow (hs.before_accepted i j hj)
  · rcases superseded_of_step h with heq | ⟨i, -, heq, -⟩
    · exact grow (hs.superseded_accepted j (heq ▸ hj))
    · rw [heq, mem_append] at hj
      rcases hj with hj | hj
      · exact grow (hs.superseded_accepted j hj)
      · exact grow (hs.before_accepted i j hj)
  · rcases superseded_of_step h with heq | ⟨i, hi, heq, hsame⟩
    · rw [heq]
      exact hold e he
    · rw [heq, mem_append, not_or]
      exact ⟨hold e he, ha i hi e (mem_pending.mp (hsame ▸ he))⟩
  · rcases late_of_step h with heq | ⟨e, hpend, hsup⟩
    · rw [heq, hs.late_eq]
    · exact absurd hsup (hs.not_pending e hpend)

variable {backend : KeyedStore Key Bytes} {old : List WalRecord} {acts : List Act}

/-- **A synchronous write is not undone**, if every `SetSync` that returns finds the earlier writes
to its key flushed: none of them is performed after it. -/
theorem no_late_write (hrun : run (step o) (newStore backend old) acts = some s)
    (hflushed : Along (step o) Flushed (newStore backend old) acts) : s.late = [] := by
  have hinv : s.Registered ∧ s.Superseding := by
    refine invariant_of_run (I := fun s => s.Registered ∧ s.Superseding) ?_
      ⟨registered_newStore backend old, ?_⟩ hflushed hrun
    · rintro s a s' ⟨hr, hs⟩ ha h
      exact ⟨hr.step h, hs.step hr ha h⟩
    · exact ⟨fun i j hj => absurd hj not_mem_nil, fun j hj => absurd hj not_mem_nil,
        fun e _ => not_mem_nil, rfl⟩
  exact hinv.2.late_eq

/-- A `Set` is flushed, then a `SetSync` on its key is made. -/
def flushedActs : List Act :=
  setActs 0 "alice" [1] ++ [Act.tick, .drain, .drain, .apply .ok, .ack, .proceed, .replay true,
    .truncate true, .syncCall 0 "players" "alice" (some [2]), .syncPut 0 .ok, .syncReturn 0]

theorem no_late_write_flushed : ∃ s,
    run (step sampleOptions) (newStore (fun _ => none) []) flushedActs = some s ∧
      s.superseded = [0] ∧ s.late = [] := by
  obtain ⟨s, hrun, hsup⟩ : ∃ s,
      run (step sampleOptions) (newStore (fun _ => none) []) flushedActs = some s ∧
        s.superseded = [0] := ⟨_, rfl, rfl⟩
  exact ⟨s, hrun, hsup, no_late_write hrun (by decide)⟩

/-- A `Set` is queued, a `SetSync` on its key is made, and then the worker flushes. -/
def overwritingActs : List Act :=
  setActs 0 "alice" [1] ++ [Act.syncCall 0 "players" "alice" (some [2]), .syncPut 0 .ok,
    .syncReturn 0, .tick, .drain, .drain, .apply .ok]

/-- The older value replaces the one that the `SetSync` has reported as written. -/
theorem late_write_of_queue : ∃ s,
    run (step sampleOptions) (newStore (fun _ => none) []) overwritingActs = some s ∧
      s.syncs 0 = .returned ∧ s.superseded = [0] ∧ s.late = [⟨0, setRecord "alice" [1]⟩] ∧
      s.backend ("players", "alice") = some [1] :=
  ⟨_, rfl, rfl, rfl, rfl, rfl⟩

end Store

end RanGame.Storage
