import RanGame.Storage.Store

/-!
# What a step of the store can be

`Store.Happens` lists the branches of `Store.step`: for each, the guard and the state it leads to.
-/

namespace RanGame.Storage

namespace Store

open Option

inductive Happens (o : Options) (s : Store) : Act → Store → Prop
  | callRejected {i op now} (hi : s.calls i = .notStarted) (hop : op.record now = none) :
    Happens o s (.call i op now) (s.setCall i (.rejected .marshal))
  | call {i op now r} (hi : s.calls i = .notStarted) (hop : op.record now = some r) :
    Happens o s (.call i op now) (s.setCall i (.checking r))
  | load {i r} (hi : s.calls i = .checking r) : Happens o s (.load i)
      (s.setCall i (if s.closing then .rejected .shuttingDown else .admitting r))
  | allow {i now r} (hi : s.calls i = .admitting r) : Happens o s (.allow i now)
      { s.setCall i (if (s.breaker.allow o.breakerCooldown now r.table).1 then .sending r
          else .rejected (.breakerOpen r.table)) with
        breaker := (s.breaker.allow o.breakerCooldown now r.table).2 }
  | send {i r} (hi : s.calls i = .sending r) (hroom : s.queue.length < o.queueSize) :
    Happens o s (.send i)
      { s.setCall i (.accepted r) with
        queue := s.queue ++ [⟨i, r⟩], accepted := s.accepted ++ [⟨i, r⟩] }
  | sendFull {i r} (hi : s.calls i = .sending r) (hfull : o.queueSize ≤ s.queue.length) :
    Happens o s (.send i) (s.setCall i (.spilling r))
  | spill {i r} (hi : s.calls i = .spilling r)
    (hcan : s.canLog o .ok = true) (hfree : s.worker.inReplay = false) : Happens o s (.spill i .ok)
      { (s.log ⟨i, r⟩ .ok).setCall i (.accepted r) with accepted := s.accepted ++ [⟨i, r⟩] }
  | spillFailed {i r w} (hi : s.calls i = .spilling r)
    (hcan : s.canLog o (.failed w) = true) (hfree : s.worker.inReplay = false) :
    Happens o s (.spill i (.failed w))
      { (s.log ⟨i, r⟩ (.failed w)).setCall i (.tripping r) with dead := s.dead ++ [⟨i, r⟩] }
  | trip {i now r} (hi : s.calls i = .tripping r) : Happens o s (.trip i now)
      { s.setCall i (.rejected (.overflow r.table)) with breaker := s.breaker.trip now r.table }
  | syncFailed {i table key} (hi : s.syncs i = .notStarted) :
    Happens o s (.syncCall i table key none) (s.setSync i .failed)
  | syncCall {i table key value} (hi : s.syncs i = .notStarted) :
    Happens o s (.syncCall i table key (some value))
      (s.setSync i (.putting ⟨(table, key), some value⟩
        ((s.accepted.filter fun e => e.key = (table, key)).map Entry.id)))
  | syncPut {i reply u before} (hi : s.syncs i = .putting u before) : Happens o s (.syncPut i reply)
      { s.setSync i (if reply = .ok then .put before else .failed) with
        backend := if reply.lands then s.backend.perform u else s.backend }
  | syncReturn {i before} (hi : s.syncs i = .put before) :
    Happens o s (.syncReturn i) { s.setSync i .returned with superseded := s.superseded ++ before }
  | tick (hw : s.worker = .idle) : Happens o s .tick { s with worker := .draining [] }
  | take {batch rest e} (hw : s.worker = .draining batch)
    (hq : s.queue = e :: rest) (hlt : batch.length < o.maxBatch) :
    Happens o s .drain { s with queue := rest, worker := .draining (batch ++ [e]) }
  | full {batch rest e} (hw : s.worker = .draining batch)
    (hq : s.queue = e :: rest) (hge : o.maxBatch ≤ batch.length) :
    Happens o s .drain { s with worker := .writing 0 batch [] }
  | dry (hw : s.worker = .draining []) (hq : s.queue = []) :
    Happens o s .drain { s with worker := .flushed }
  | batched {batch e} (hw : s.worker = .draining (e :: batch)) (hq : s.queue = []) :
    Happens o s .drain { s with worker := .writing 0 (e :: batch) [] }
  | closeTake {rest e} (hw : s.worker = .closeDraining) (hq : s.queue = e :: rest) :
    Happens o s .drain { s with queue := rest, worker := .closeApplying e }
  | closeDry (hw : s.worker = .closeDraining) (hq : s.queue = []) :
    Happens o s .drain { s with worker := .closeDrained }
  | write {attempt e todo failed} (hw : s.worker = .writing attempt (e :: todo) failed) :
    Happens o s (.apply .ok)
      { s.land e .ok with worker := .acking e (.writing attempt todo failed) }
  | writeFailed {attempt e todo failed p} (hw : s.worker = .writing attempt (e :: todo) failed) :
    Happens o s (.apply (.failed p))
      { s.land e (.failed p) with worker := .writing attempt todo (failed ++ [e]) }
  | restore {e todo final} (hw : s.worker = .replaying (e :: todo) final) :
    Happens o s (.apply .ok) { s.land e .ok with worker := .acking e (.replaying todo final) }
  /-- A replay stops at its first failure. -/
  | restoreFailed {e todo final p} (hw : s.worker = .replaying (e :: todo) final) :
    Happens o s (.apply (.failed p)) { s.land e (.failed p) with worker := .afterReplay final }
  | closeWrite {e} (hw : s.worker = .closeApplying e) :
    Happens o s (.apply .ok) { s.land e .ok with worker := .acking e .closeChecking }
  | closeRefused {e p} (hw : s.worker = .closeApplying e) (hwal : o.wal = true) :
    Happens o s (.apply (.failed p)) { s.land e (.failed p) with worker := .closeAppending e }
  /-- There is no log to append to. -/
  | closeBury {e p} (hw : s.worker = .closeApplying e) (hwal : o.wal = false) :
    Happens o s (.apply (.failed p))
      { s.land e (.failed p) with dead := s.dead ++ [e], worker := .closeChecking }
  | ack {e next} (hw : s.worker = .acking e next) :
    Happens o s .ack { s with breaker := s.breaker.onSuccess e.record.table, worker := next }
  /-- A pass without failures ends the batch. -/
  | written {attempt} (hw : s.worker = .writing attempt [] []) :
    Happens o s .proceed { s with worker := .flushed }
  | retry {attempt e failed}
    (hw : s.worker = .writing attempt [] (e :: failed)) (hlt : attempt < o.maxRetry) :
    Happens o s .proceed { s with worker := .writing (attempt + 1) (e :: failed) [] }
  | giveUp {attempt e failed}
    (hw : s.worker = .writing attempt [] (e :: failed)) (hge : o.maxRetry ≤ attempt) :
    Happens o s .proceed { s with worker := .reopening (e :: failed) (e :: failed) [] }
  | dump {batch reopened} (hw : s.worker = .reopening batch [] reopened) :
    Happens o s .proceed { s with worker := .dumping batch [] }
  | dumped {tripped} (hw : s.worker = .dumping [] tripped) :
    Happens o s .proceed { s with worker := .flushed }
  /-- The table has been reported before. -/
  | reopenAgain {now batch todo e reopened}
    (hw : s.worker = .reopening batch (e :: todo) reopened) (he : e.record.table ∈ reopened) :
    Happens o s (.reopen now) { s with worker := .reopening batch todo reopened }
  | reopen {now batch todo e reopened}
    (hw : s.worker = .reopening batch (e :: todo) reopened) (he : e.record.table ∉ reopened) :
    Happens o s (.reopen now)
      { s with
        breaker := s.breaker.onFailure now e.record.table
        worker := .reopening batch todo (e.record.table :: reopened) }
  | append {e todo tripped}
    (hcan : s.canLog o .ok = true) (hw : s.worker = .dumping (e :: todo) tripped) :
    Happens o s (.append .ok) { s.log e .ok with worker := .dumping todo tripped }
  | appendFailed {e todo tripped w}
    (hcan : s.canLog o (.failed w) = true) (hw : s.worker = .dumping (e :: todo) tripped) :
    Happens o s (.append (.failed w))
      { s.log e (.failed w) with
        dead := s.dead ++ [e], worker := if e.record.table ∈ tripped then .dumping todo tripped
          else .tripping e.record.table (.dumping todo (e.record.table :: tripped)) }
  | closeAppend {e out} (hcan : s.canLog o out = true) (hw : s.worker = .closeAppending e) :
    Happens o s (.append out)
      { s.log e out with
        lost := if out.writes then s.lost else s.lost ++ [e], worker := .closeChecking }
  | workerTrip {now table next} (hw : s.worker = .tripping table next) :
    Happens o s (.workerTrip now) { s with breaker := s.breaker.trip now table, worker := next }
  | replay {readable} (hw : s.worker = .flushed) : Happens o s (.replay readable)
      { s with
        worker := if o.wal && !s.walClosed && readable then .replaying s.wal false else .idle }
  | closeReplay {readable} (hw : s.worker = .closeDrained) : Happens o s (.replay readable)
      { s with
        worker :=
          if o.wal && !s.walClosed && readable then .replaying s.wal true else .closeFinishing }
  | truncate {done final} (hw : s.worker = .replaying [] final) : Happens o s (.truncate done)
      { s with wal := if done then [] else s.wal, worker := .afterReplay final }
  | close : Happens o s .close { s with closing := true }
  | stop (hw : s.worker = .idle) (hclosing : s.closing = true) :
    Happens o s .stop { s with worker := .closeDraining }
  | checkDeadline {expired} (hw : s.worker = .closeChecking) : Happens o s (.checkDeadline expired)
      { s with worker := if expired then .closeDrained else .closeDraining }
  | finish (hw : s.worker = .closeFinishing) :
    Happens o s .finish { s with walClosed := true, worker := .closed }

variable {o : Options} {s s' : Store}

theorem happens_of_drainStep (h : s.drainStep o = some s') : Happens o s .drain s' := by
  unfold drainStep at h
  split at h
  next hw hq =>
    split at h <;> cases h
    next hlt => exact .take hw hq hlt
    next hge => exact .full hw hq (Nat.le_of_not_lt hge)
  next hw hq => exact some.inj h ▸ .dry hw hq
  next hw hq => exact some.inj h ▸ .batched hw hq
  next hw hq => exact some.inj h ▸ .closeTake hw hq
  next hw hq => exact some.inj h ▸ .closeDry hw hq
  · cases h

theorem happens_of_applyStep {reply : Reply} (h : s.applyStep o reply = some s') :
    Happens o s (.apply reply) s' := by
  unfold applyStep at h
  split at h
  next hw =>
    cases reply with
    | ok => exact some.inj h ▸ .write hw
    | failed p => exact some.inj h ▸ .writeFailed hw
  next hw =>
    cases reply with
    | ok => exact some.inj h ▸ .restore hw
    | failed p => exact some.inj h ▸ .restoreFailed hw
  next hw =>
    cases reply with
    | ok => exact some.inj h ▸ .closeWrite hw
    | failed p =>
      dsimp only at h
      split at h <;> cases h
      next hwal => exact .closeRefused hw hwal
      next hwal => exact .closeBury hw (Bool.not_eq_true _ ▸ hwal)
  · cases h

theorem happens_of_proceedStep (h : s.proceedStep o = some s') : Happens o s .proceed s' := by
  unfold proceedStep at h
  split at h
  next hw => exact some.inj h ▸ .written hw
  next hw =>
    split at h <;> cases h
    next hlt => exact .retry hw hlt
    next hge => exact .giveUp hw (Nat.le_of_not_lt hge)
  next hw => exact some.inj h ▸ .dump hw
  next hw => exact some.inj h ▸ .dumped hw
  · cases h

theorem happens_of_appendStep {out : Append} (h : s.appendStep o out = some s') :
    Happens o s (.append out) s' := by
  unfold appendStep at h
  split at h
  next hcan =>
    split at h
    next hw =>
      cases out with
      | ok => exact some.inj h ▸ .append hcan hw
      | failed w => exact some.inj h ▸ .appendFailed hcan hw
    next hw => exact some.inj h ▸ .closeAppend hcan hw
    · cases h
  · cases h

theorem happens_of_replayStep {readable : Bool} (h : s.replayStep o readable = some s') :
    Happens o s (.replay readable) s' := by
  unfold replayStep at h
  split at h <;> cases h
  next hw => exact .replay hw
  next hw => exact .closeReplay hw

variable {i : ℕ} {a : Act}

theorem happens_of_client (ha : a.client = some i) (h : s.step o a = some s') :
    Happens o s a s' := by
  cases a with
  | call i op now =>
    simp only [step] at h
    split at h
    next hi =>
      split at h <;> cases h
      next hop => exact .callRejected hi hop
      next hop => exact .call hi hop
    · cases h
  | load | allow | trip =>
    simp only [step] at h
    split at h <;> cases h
    next hi =>
      constructor
      exact hi
  | send i =>
    simp only [step] at h
    split at h
    next hi =>
      rw [← some.inj h, Store.send]
      split
      next hroom => exact .send hi hroom
      next hfull => exact .sendFull hi (Nat.le_of_not_lt hfull)
    · cases h
  | spill i out =>
    simp only [step] at h
    split at h
    next hi =>
      split at h
      next hcan =>
        rw [Bool.and_eq_true, Bool.not_eq_true'] at hcan
        cases out with
        | ok => exact some.inj h ▸ .spill hi hcan.1 hcan.2
        | failed w => exact some.inj h ▸ .spillFailed hi hcan.1 hcan.2
      · cases h
    · cases h
  | _ => cases ha

theorem happens_of_sync (ha : a.sync = some i) (h : s.step o a = some s') : Happens o s a s' := by
  cases a with
  | syncCall i table key raw =>
    simp only [step] at h
    split at h
    next hi =>
      split at h <;> cases h
      · exact .syncFailed hi
      · exact .syncCall hi
    · cases h
  | syncPut | syncReturn =>
    simp only [step] at h
    split at h <;> cases h
    next hi =>
      constructor
      exact hi
  | _ => cases ha

/-- **A step is one of the branches.** -/
theorem happens_of_step (h : s.step o a = some s') : Happens o s a s' := by
  cases a with
  | call | load | allow | send | spill | trip => exact happens_of_client rfl h
  | syncCall | syncPut | syncReturn => exact happens_of_sync rfl h
  | drain => exact happens_of_drainStep h
  | apply reply => exact happens_of_applyStep h
  | proceed => exact happens_of_proceedStep h
  | append out => exact happens_of_appendStep h
  | replay readable => exact happens_of_replayStep h
  | close => exact some.inj h ▸ .close
  | reopen now =>
    simp only [step] at h
    split at h
    next hw =>
      split at h <;> cases h
      next he => exact .reopenAgain hw he
      next he => exact .reopen hw he
    · cases h
  | stop =>
    simp only [step] at h
    split at h <;> cases h
    next hw => exact .stop hw.1 hw.2
  | _ =>
    simp only [step] at h
    split at h <;> cases h
    next hw =>
      constructor
      exact hw

/-! ### Who changes what -/

/-- The worker, `Close` and the synchronous calls accept nothing. -/
theorem calls_of_step (ha : a.client = none) (h : s.step o a = some s') :
    s'.calls = s.calls ∧ s'.accepted = s.accepted := by
  cases happens_of_step h with
  | callRejected | call | load | allow | send | sendFull | spill | spillFailed | trip => cases ha
  | _ => exact ⟨rfl, rfl⟩

/-- A call that has not returned moves, and is accepted exactly when it returns `nil`. -/
theorem call_of_step (ha : a.client = some i) (h : s.step o a = some s') :
    (∀ r, s.calls i ≠ .accepted r) ∧ ∃ c, s'.calls = Function.update s.calls i c ∧
      s'.accepted = s.accepted ++ match c with
        | .accepted r => [⟨i, r⟩]
        | _ => [] := by
  cases happens_of_step h with
  | callRejected hi | call hi | sendFull hi | spillFailed hi | trip hi =>
    cases ha
    exact ⟨fun r hr => (by cases hi.symm.trans hr), _, rfl, (List.append_nil _).symm⟩
  | load hi | allow hi =>
    cases ha
    refine ⟨fun r hr => (by cases hi.symm.trans hr), _, rfl, ?_⟩
    split <;> exact (List.append_nil _).symm
  | send hi | spill hi =>
    cases ha
    exact ⟨fun r hr => (by cases hi.symm.trans hr), _, rfl, rfl⟩
  | _ => cases ha

theorem syncs_of_step (ha : a.sync = none) (h : s.step o a = some s') : s'.syncs = s.syncs := by
  cases happens_of_step h with
  | syncFailed | syncCall | syncPut | syncReturn => cases ha
  | _ => rfl

theorem queue_of_step (hsend : ∀ i, a ≠ .send i) (hdrain : a ≠ .drain) (h : s.step o a = some s') :
    s'.queue = s.queue := by
  cases happens_of_step h with
  | send | sendFull => exact absurd rfl (hsend _)
  | take | full | dry | batched | closeTake | closeDry => exact absurd rfl hdrain
  | _ => rfl

theorem closing_of_step (ha : a ≠ .close) (ha' : a ≠ .finish) (h : s.step o a = some s') :
    s'.closing = s.closing ∧ s'.walClosed = s.walClosed := by
  cases happens_of_step h with
  | close => exact absurd rfl ha
  | finish => exact absurd rfl ha'
  | _ => exact ⟨rfl, rfl⟩

end Store

end RanGame.Storage
