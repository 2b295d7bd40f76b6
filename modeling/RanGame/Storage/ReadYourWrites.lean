import RanGame.Storage.Ordering

/-!
# Reading what has been written

`Set` and `Del` of the in-memory storage (`internal/storage/memory.go`) take effect at once. Those
of the write-back store return when the write is in the queue, and `Get` goes to the backend
directly. When nothing of a key is pending, the two agree on it, if its writes go through the queue.
-/

namespace RanGame.Storage

open Function Machine KeyedStore

/-- `MemoryStorage` after a list of writes. -/
def memoryStorage (initial : KeyedStore Key Bytes) (writes : List Entry) : KeyedStore Key Bytes :=
  initial.performAll (writes.map Entry.update)

theorem memoryStorage_append (initial : KeyedStore Key Bytes) (writes more : List Entry) :
    memoryStorage initial (writes ++ more) =
      (memoryStorage initial writes).performAll (more.map Entry.update) := by
  rw [memoryStorage, List.map_append, performAll_append, memoryStorage]

def Act.backendWorks : Act → Bool
  | .apply reply | .syncPut _ reply => reply = .ok
  | _ => true

/-- The key that a `SetSync` is called for. -/
def Act.syncKey : Act → Option Key
  | .syncCall _ table key _ => some (table, key)
  | _ => none

/-- The worker has met no failure of the backend. -/
@[simp] def Worker.Smooth : Worker → Prop
  | .writing _ _ failed => failed = []
  | .reopening .. | .dumping .. | .closeAppending _ | .tripping .. => False
  | .acking _ next => next.Smooth
  | _ => True

namespace Store

open List

/-- `Get`, up to the decoding of the value: `none` is `ErrStorageNotFound`. -/
def get (s : Store) (table key : String) : Option Bytes := s.backend (table, key)

/-- A write of `k` is not spilled, and not made by `SetSync`. -/
def ThroughQueue (k : Key) (s : Store) (a : Act) : Prop :=
  (∀ i ∈ a.spills, ∀ r ∈ (s.calls i).outgoing, (r.table, r.key) ≠ k) ∧ k ∉ a.syncKey

instance (k : Key) (s : Store) (a : Act) : Decidable (s.ThroughQueue k a) :=
  inferInstanceAs (Decidable ((∀ i ∈ a.spills, _) ∧ _))

/-- A write of `k` is in the queue or in the worker's hands. -/
def Pending (s : Store) (k : Key) : Prop := ∃ e ∈ s.worker.held ++ s.queue, e.key = k

/-- What a run keeps in which `k` goes through the queue. -/
structure Queued (k : Key) (initial : KeyedStore Key Bytes) (s : Store) : Prop where
  smooth : s.worker.Smooth
  log_ne : ∀ e ∈ s.wal, e.key ≠ k
  sync_ne : ∀ i u before, s.syncs i = .putting u before → u.key ≠ k
  /-- The pending writes, performed on the backend, leave at `k` what the accepted writes leave. -/
  agrees : s.backend.performAll ((s.worker.held ++ s.queue).map Entry.update) k =
    memoryStorage initial s.accepted k

variable {o : Options} {k : Key} {initial : KeyedStore Key Bytes} {s s' : Store}

section

variable (h : s.Queued k initial)

include h

theorem Queued.of_eq (hw : s'.worker.Smooth) (hlog : ∀ e ∈ s'.wal, e ∈ s.wal ∨ e.key ≠ k)
    (hsyncs : s'.syncs = s.syncs) (hb : s'.backend = s.backend) (hacc : s'.accepted = s.accepted)
    (hpending : s'.worker.held ++ s'.queue = s.worker.held ++ s.queue) : s'.Queued k initial where
  smooth := hw
  log_ne e he := by
    rcases hlog e he with he | he
    · exact h.log_ne e he
    · exact he
  sync_ne := by
    rw [hsyncs]
    exact h.sync_ne
  agrees := by
    rw [hpending, hb, hacc]
    exact h.agrees

theorem Queued.perform {e : Entry} {w : Worker} (hw : w.Smooth)
    (hpending : s.worker.held = e :: w.held) :
    ({ s.land e .ok with worker := w } : Store).Queued k initial where
  __ := h
  smooth := hw
  agrees := by
    have hagrees := h.agrees
    rw [hpending, cons_append, map_cons, performAll_cons] at hagrees
    exact hagrees

theorem Queued.replay {w : Worker} (hw : w.Smooth) (hbefore : s.worker.held = [])
    (hheld : ∀ e ∈ w.held, e ∈ s.wal) : ({ s with worker := w } : Store).Queued k initial where
  __ := h
  smooth := hw
  agrees := by
    have hagrees := h.agrees
    rw [hbefore, nil_append] at hagrees
    rw [map_append, performAll_append, ← hagrees]
    refine performAll_congr _ (performAll_of_forall_ne ?_)
    intro u hu
    obtain ⟨e, he, rfl⟩ := mem_map.mp hu
    exact h.log_ne e (hheld e he)

theorem Queued.send (i : ℕ) (r : WalRecord) : ({ s.setCall i (.accepted r) with
        queue := s.queue ++ [⟨i, r⟩], accepted := s.accepted ++ [⟨i, r⟩] } : Store).Queued k
      initial where
  __ := h
  agrees := by
    show s.backend.performAll ((s.worker.held ++ (s.queue ++ [(⟨i, r⟩ : Entry)])).map
      Entry.update) k = memoryStorage initial (s.accepted ++ [⟨i, r⟩]) k
    rw [memoryStorage_append, ← append_assoc, map_append, performAll_append]
    exact performAll_congr _ h.agrees

theorem Queued.spill {i : ℕ} {r : WalRecord} (hr : (r.table, r.key) ≠ k) :
    ({ (s.log ⟨i, r⟩ .ok).setCall i (.accepted r) with
        accepted := s.accepted ++ [⟨i, r⟩] } : Store).Queued k initial where
  __ := h
  log_ne e he := by
    rcases mem_append.mp he with he | he
    · exact h.log_ne e he
    · obtain rfl := mem_singleton.mp he
      exact hr
  agrees := by
    show _ = memoryStorage initial (s.accepted ++ [⟨i, r⟩]) k
    rw [memoryStorage_append]
    refine h.agrees.trans (performAll_of_forall_ne ?_).symm
    intro u hu
    obtain rfl := mem_singleton.mp hu
    exact hr

theorem Queued.sync {i : ℕ} {c : SyncCall} (hc : ∀ u before, c = .putting u before → u.key ≠ k) :
    ∀ j u before, update s.syncs i c j = .putting u before → u.key ≠ k := by
  intro j u before hj
  rcases of_update (P := fun c => c = SyncCall.putting u before) hj with ⟨-, hj⟩ | ⟨-, hj⟩
  · exact hc u before hj
  · exact h.sync_ne j u before hj

theorem Queued.syncPut {i : ℕ} {u : Update Key Bytes} {before : List ℕ}
    (hi : s.syncs i = .putting u before) :
    ({ s.setSync i (.put before) with backend := s.backend.perform u } : Store).Queued k
      initial where
  __ := h
  sync_ne := h.sync (by rintro _ _ ⟨⟩)
  agrees := by
    have hu : k ≠ u.key := (h.sync_ne i u before hi).symm
    refine Eq.trans ?_ h.agrees
    exact performAll_congr _ (update_of_ne hu _ _)

/-- **One step** of a store whose backend works, with `k` going through the queue. -/
theorem Queued.step {a : Act} (hworks : a.backendWorks = true) (ha : s.ThroughQueue k a)
    (hstep : s.step o a = some s') : s'.Queued k initial := by
  have still : s'.worker.Smooth → (∀ e ∈ s'.wal, e ∈ s.wal ∨ e.key ≠ k) → s'.syncs = s.syncs →
      s'.backend = s.backend → s'.accepted = s.accepted →
      s'.worker.held ++ s'.queue = s.worker.held ++ s.queue → s'.Queued k initial := h.of_eq
  have hw := h.smooth
  have same : ∀ e ∈ s.wal, e ∈ s.wal ∨ e.key ≠ k := fun e he => .inl he
  cases happens_of_step hstep with
  | send hi hroom => exact h.send ..
  | spill hi => exact h.spill (ha.1 _ rfl _ (by rw [hi]; rfl))
  | @spillFailed i r w hi =>
    refine still hw (fun e he => ?_) rfl rfl rfl rfl
    rcases mem_append.mp he with he | he
    · exact .inl he
    · obtain rfl := mem_singleton.mp (Append.leaves_subset _ _ he)
      exact .inr (ha.1 i rfl r (by rw [hi]; rfl))
  | syncFailed | syncReturn => exact ⟨hw, h.log_ne, h.sync (by rintro _ _ ⟨⟩), h.agrees⟩
  | syncCall =>
    refine ⟨hw, h.log_ne, h.sync ?_, h.agrees⟩
    rintro u before ⟨⟩
    exact fun hk => ha.2 (congrArg some hk)
  | @syncPut i reply u before hi =>
    obtain rfl : reply = .ok := of_decide_eq_true hworks
    exact h.syncPut hi
  | tick hd | written hd | stop hd | finish hd =>
    exact still trivial same rfl rfl rfl (by simp [hd])
  | take hd hq | closeTake hd hq => exact still trivial same rfl rfl rfl (by simp [hd, hq])
  | full hd hq | batched hd hq => exact still rfl same rfl rfl rfl (by simp [hd])
  | dry hd hq | closeDry hd hq => exact still trivial same rfl rfl rfl (by simp [hd])
  | write hd => exact h.perform (by simpa [hd] using hw) (by simp [hd])
  | restore hd | closeWrite hd => exact h.perform trivial (by simp [hd])
  | ack hd => exact still (by simpa [hd] using hw) same rfl rfl rfl (by simp [hd])
  | replay hd | closeReplay hd =>
    refine h.replay ?_ (by simp [hd]) ?_
    · split <;> trivial
    · split <;> simp
  | @truncate done final hd =>
    refine still ?_ (fun e he => .inl ?_) rfl rfl rfl ?_
    · cases final <;> trivial
    · cases done with
      | true => cases he
      | false => exact he
    · cases final <;> simp [hd, Worker.afterReplay]
  | @checkDeadline expired hd =>
    cases expired <;> exact still trivial same rfl rfl rfl (by simp [hd])
  -- the backend does not fail
  | writeFailed | restoreFailed | closeRefused | closeBury => cases hworks
  | retry hd | giveUp hd | dump hd | dumped hd | reopenAgain hd | reopen hd | append hc hd
  | appendFailed hc hd | closeAppend hc hd | workerTrip hd => simp [hd] at hw
  | _ => exact still hw same rfl rfl rfl rfl

end

theorem queued_newStore {old : List WalRecord} (hold : ∀ r ∈ old, (r.table, r.key) ≠ k) :
    (newStore initial old).Queued k initial := by
  have hentries : ∀ e ∈ old.mapIdx Entry.mk, e.key ≠ k := by
    intro e he
    obtain ⟨i, hi, rfl⟩ := mem_mapIdx.mp he
    exact hold _ (getElem_mem hi)
  refine ⟨trivial, hentries, fun i u before hi => ?_, ?_⟩
  · cases hi
  · refine (performAll_of_forall_ne ?_).symm
    intro u hu
    obtain ⟨e, he, rfl⟩ := mem_map.mp hu
    exact hentries e he

/-- The actions of a `Del` on the table `players` up to the send. -/
def delActs (i : ℕ) (key : String) : List Act :=
  [.call i (.del "players" key) 0, .load i, .allow i 0, .send i]

end Store

end RanGame.Storage
