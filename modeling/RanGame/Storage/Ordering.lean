import RanGame.Storage.Traffic

/-!
# The order of writes

With a backend and a log that do not fail, the order in which the accepted writes reach the backend
is fixed by where they are (`Store.schedule`). A write sent into the part of the queue that goes
before the log is overtaken by a write of its key that is in the log, and one spilled to the log by
one in the part of the queue that comes after. `InOrder` excludes the two.

Of a batch with failures, only what has failed is written again, and so after later records of its
key (`Store.inTurn`).
-/

namespace RanGame.Storage

open Machine KeyedStore

/-- How much of the queue the worker still takes before it turns to the log. -/
@[simp] def Worker.window (o : Options) : Worker → ℕ
  | .idle => o.maxBatch
  | .draining batch => o.maxBatch - batch.length
  | .acking _ next => next.window o
  | _ => 0

/-- The worker has met no failure and is not inside `Close`. -/
@[simp] def Worker.Routine : Worker → Prop
  | .idle | .draining _ => True
  | .writing _ _ failed => failed = []
  | .flushed => True
  | .replaying _ final => final = false
  | .acking _ next => next.Routine
  | _ => False

/-- Neither the backend nor the log fails, and there is no `SetSync` and no `Close`. -/
def Act.healthy : Act → Bool
  | .spill _ out => out = .ok
  | .apply reply => reply = .ok
  | .append out => out = .ok
  | .replay readable => readable
  | .truncate done => done
  | .syncCall .. | .syncPut .. | .syncReturn .. | .close => false
  | _ => true

def Act.sends : Act → Option ℕ
  | .send i => some i
  | _ => none

def Act.spills : Act → Option ℕ
  | .spill i _ => some i
  | _ => none

def Call.outgoing : Call → Option WalRecord
  | .sending r | .spilling r => some r
  | _ => none

namespace Store

open List

/-- The part of the log that is not in the worker's hands. -/
def unread (s : Store) : List Entry := bif s.worker.inReplay then [] else s.wal

/-- The pending writes in the order in which the worker will perform them. -/
def schedule (o : Options) (s : Store) : List Entry :=
  s.worker.held ++ s.queue.take (s.worker.window o) ++ s.unread ++ s.queue.drop (s.worker.window o)

/-- A send in front of the log finds no write of its key there, and a spill none in the queue after
the log. -/
def InOrder (o : Options) (s : Store) (a : Act) : Prop :=
  (∀ i ∈ a.sends, ∀ r ∈ (s.calls i).outgoing, s.queue.length < o.queueSize →
      s.queue.length < s.worker.window o → ∀ e ∈ s.unread, e.key ≠ (r.table, r.key)) ∧
    (∀ i ∈ a.spills, ∀ r ∈ (s.calls i).outgoing,
      ∀ e ∈ s.queue.drop (s.worker.window o), e.key ≠ (r.table, r.key))

instance (o : Options) (s : Store) (a : Act) : Decidable (s.InOrder o a) :=
  inferInstanceAs (Decidable ((∀ i ∈ a.sends, _) ∧ (∀ i ∈ a.spills, _)))

/-- The pending writes, performed in order, leave what the accepted writes leave. -/
def Settles (o : Options) (backend : KeyedStore Key Bytes) (s : Store) : Prop :=
  s.backend.performAll ((s.schedule o).map Entry.update) =
    backend.performAll (s.accepted.map Entry.update)

variable {o : Options} {s s' : Store} {backend : KeyedStore Key Bytes}

section

variable (hs : s.Settles o backend)

include hs

theorem Settles.of_eq (hb : s'.backend = s.backend) (ha : s'.accepted = s.accepted)
    (hsch : s'.schedule o = s.schedule o) : s'.Settles o backend := by
  unfold Settles at *
  rw [hb, ha, hsch, hs]

theorem Settles.insert (e : Entry) (before after : List Entry) (hb : s'.backend = s.backend)
    (ha : s'.accepted = s.accepted ++ [e]) (hold : s.schedule o = before ++ after)
    (hnew : s'.schedule o = before ++ e :: after) (hafter : ∀ e' ∈ after, e'.key ≠ e.key) :
    s'.Settles o backend := by
  unfold Settles at *
  rw [hold, map_append] at hs
  rw [hb, ha, hnew, map_append, map_cons, map_append, map_singleton,
    performAll_concat, ← hs]
  refine performAll_insert ?_
  intro u hu
  obtain ⟨e', he', rfl⟩ := mem_map.mp hu
  exact hafter e' he'

theorem Settles.perform (e : Entry) (hb : s'.backend = s.backend.perform e.update)
    (ha : s'.accepted = s.accepted) (hsch : s.schedule o = e :: s'.schedule o) :
    s'.Settles o backend := by
  unfold Settles at *
  rw [hb, ha, ← hs, hsch, map_cons, performAll_cons]

theorem Settles.send {i : ℕ} {r : WalRecord} (hi : s.calls i = .sending r)
    (hroom : s.queue.length < o.queueSize) (ha : s.InOrder o (.send i)) :
    Settles o backend
      { s.setCall i (.accepted r) with
        queue := s.queue ++ [⟨i, r⟩], accepted := s.accepted ++ [⟨i, r⟩] } := by
  by_cases hwin : s.queue.length < s.worker.window o
  · -- the write lands in front of the log
    refine hs.insert ⟨i, r⟩ (s.worker.held ++ s.queue) s.unread
      rfl rfl ?_ ?_ (ha.1 i rfl r (by rw [hi]; rfl) hroom hwin)
    · simp [schedule, take_of_length_le hwin.le, drop_eq_nil_of_le hwin.le]
    · have hle : (s.queue ++ [(⟨i, r⟩ : Entry)]).length ≤ s.worker.window o := by simpa using hwin
      simp [schedule, setCall, unread, take_of_length_le hle, drop_eq_nil_of_le hle]
  · have hle : s.worker.window o ≤ s.queue.length := Nat.le_of_not_lt hwin
    refine hs.insert ⟨i, r⟩ _ [] rfl rfl (append_nil _).symm ?_ (by simp)
    simp [schedule, setCall, unread, take_append_of_le_length hle, drop_append_of_le_length hle]

theorem Settles.spill {i : ℕ} {r : WalRecord} (hi : s.calls i = .spilling r)
    (hr : s.worker.inReplay = false) (ha : s.InOrder o (.spill i .ok)) :
    (s.spill i r .ok).Settles o backend := by
  refine hs.insert ⟨i, r⟩ (s.worker.held ++ s.queue.take (s.worker.window o) ++ s.wal)
    (s.queue.drop (s.worker.window o)) rfl rfl ?_ ?_ (ha.2 i rfl r (by rw [hi]; rfl))
  · simp [schedule, unread, hr]
  · simp [schedule, unread, Store.spill, log, setCall, hr]

end

/-- What a healthy run keeps: no failure, no `Close`, and a schedule in order. -/
structure Healthy (o : Options) (backend : KeyedStore Key Bytes) (s : Store) : Prop where
  settles : s.Settles o backend
  routine : s.worker.Routine
  closing_eq : s.closing = false
  walClosed_eq : s.walClosed = false

theorem Healthy.flags {a : Act} (hs : s.Healthy o backend) (hhealthy : a.healthy = true)
    (h : s.step o a = some s') : s'.closing = false ∧ s'.walClosed = false := by
  suffices hsame : s'.closing = s.closing ∧ s'.walClosed = s.walClosed by
    rwa [hs.closing_eq, hs.walClosed_eq] at hsame
  refine closing_of_step ?_ ?_ h
  · rintro rfl
    cases hhealthy
  · rintro rfl
    have hw := hs.routine
    cases happens_of_step h with
    | finish hd => simp [hd] at hw

/-- **One step keeps the schedule in order.** -/
theorem Healthy.step {a : Act} (hwal : o.wal = true) (hs : s.Healthy o backend)
    (hhealthy : a.healthy = true) (ha : s.InOrder o a) (h : s.step o a = some s') :
    s'.Healthy o backend := by
  obtain ⟨hclosing', hopen'⟩ := hs.flags hhealthy h
  obtain ⟨hset, hw, hclosing, hopen⟩ := hs
  suffices hgoal : s'.Settles o backend ∧ s'.worker.Routine from
    ⟨hgoal.1, hgoal.2, hclosing', hopen'⟩
  have still : s'.backend = s.backend → s'.accepted = s.accepted → s'.worker.Routine →
      s'.schedule o = s.schedule o → s'.Settles o backend ∧ s'.worker.Routine :=
    fun hb hacc hw' hsch => ⟨hset.of_eq hb hacc hsch, hw'⟩
  cases happens_of_step h with
  | send hi hroom => exact ⟨hset.send hi hroom ha, hw⟩
  | spill hi hcan hfree => exact ⟨hset.spill hi hfree ha, hw⟩
  | @take batch _ _ hd hq hlt =>
    -- a write moves from the front of the window to the end of the batch
    obtain ⟨w, hwin⟩ : ∃ w, o.maxBatch - batch.length = w + 1 :=
      ⟨o.maxBatch - batch.length - 1, by omega⟩
    have hwin' : o.maxBatch - (batch.length + 1) = w := by omega
    exact still rfl rfl trivial (by simp [schedule, unread, hd, hq, hwin, hwin'])
  | full hd hq hge => exact still rfl rfl rfl (by simp [schedule, unread, hd, hge])
  | dry hd hq => exact still rfl rfl trivial (by simp [schedule, unread, hd, hq])
  | batched hd hq => exact still rfl rfl rfl (by simp [schedule, unread, hd, hq])
  | write hd | restore hd =>
    -- the first write of the schedule is performed
    exact ⟨hset.perform _ rfl rfl (by simp [schedule, unread, land, hd]), by simpa [hd] using hw⟩
  | ack hd => exact still rfl rfl (by simpa [hd] using hw) (by simp [schedule, unread, hd])
  | tick hd | written hd => exact still rfl rfl trivial (by simp [schedule, unread, hd])
  | @replay readable hd =>
    obtain rfl : readable = true := hhealthy
    have hreads : (o.wal && !s.walClosed && true) = true := by rw [hwal, hopen]; rfl
    exact still rfl rfl (by simp [hreads]) (by simp [schedule, unread, hd, hreads])
  | @truncate done final hd =>
    obtain rfl : done = true := hhealthy
    obtain rfl : final = false := by simpa [hd] using hw
    exact still rfl rfl trivial (by simp [schedule, unread, hd, Worker.afterReplay])
  -- what fails, a `SetSync` or a `Close` is not healthy
  | spillFailed | writeFailed | restoreFailed | closeRefused | closeBury | appendFailed
  | syncFailed | syncCall | syncPut | syncReturn | close => cases hhealthy
  | stop hd hc => cases hclosing.symm.trans hc
  -- the rest follows a failure, or belongs to `Close`
  | closeTake hd | closeDry hd | closeWrite hd | retry hd | giveUp hd | dump hd | dumped hd
  | reopenAgain hd | reopen hd | append hc hd | closeAppend hc hd | workerTrip hd | closeReplay hd
  | checkDeadline hd | finish hd => simp [hd] at hw
  | _ => exact still rfl rfl hw rfl

variable {old : List WalRecord} {acts : List Act}

theorem healthy_newStore (backend : KeyedStore Key Bytes) (old : List WalRecord) :
    (newStore backend old).Healthy o backend :=
  ⟨by simp [Settles, schedule, unread, newStore], trivial, rfl, rfl⟩

/-- One flush of a batch of one and the replay of an empty log. -/
def flushActs : List Act :=
  [.tick, .drain, .drain, .apply .ok, .ack, .proceed, .replay true, .truncate true]

/-- A full queue with a write of `alice` second, and the next one spilled; the worker flushes one,
replays the log and flushes the rest. -/
def spilledActs : List Act :=
  setActs 0 "bob" [0] ++ setActs 1 "alice" [1] ++ setActs 2 "alice" [2] ++ [Act.spill 2 .ok] ++
    [Act.tick, .drain, .drain, .apply .ok, .ack, .proceed, .replay true, .apply .ok, .ack,
      .truncate true] ++ flushActs

end Store

/-! ### One batch -/

/-- Is the next record about to overtake one of its key that has failed? -/
def Worker.overtakes : Worker → Bool
  | .writing _ (e :: _) failed => failed.any (·.key = e.key)
  | _ => false

namespace Store

/-- The actions of `writeBatch`, without overtaking. -/
def inTurn (s : Store) : Act → Bool
  | .ack | .proceed => true
  | .apply reply => reply ≠ .ok || !s.worker.overtakes
  | _ => false

/-- A pass of `writeBatch`: the records that have failed and those to come. -/
inductive Pass : Worker → List Entry → Prop
  | writing {attempt todo failed} : Pass (.writing attempt todo failed) (failed ++ todo)
  | acking {e attempt todo failed} :
    Pass (.acking e (.writing attempt todo failed)) (failed ++ todo)
  | reopening {batch e todo reopened} : Pass (.reopening batch (e :: todo) reopened) batch
  | flushed : Pass .flushed []

/-- What is left of a batch leads to what the batch is to leave. -/
def Batched (b : KeyedStore Key Bytes) (s : Store) : Prop :=
  ∃ left, Pass s.worker left ∧ s.backend.performAll (left.map Entry.update) = b

section Batch

variable {o : Options} {s s' : Store} {b : KeyedStore Key Bytes} {batch : List Entry}

theorem Batched.apply (h : s.Batched b) {reply : Reply}
    (hturn : reply = .ok → s.worker.overtakes = false)
    (hs : s.applyStep o reply = some s') : s'.Batched b := by
  obtain ⟨left, hleft, rfl⟩ := h
  rw [applyStep] at hs
  generalize s.worker = w at *
  cases hleft with
  | acking | reopening | flushed => cases hs
  | @writing attempt todo failed =>
    cases todo with
    | nil => cases hs
    | cons e todo =>
      cases hs
      cases reply with
      | ok =>
        refine ⟨_, .acking, ?_⟩
        have hkeys : ∀ v ∈ failed.map Entry.update, v.key ≠ e.update.key := by
          simpa [Worker.overtakes, Entry.update] using hturn rfl
        simp only [List.map_append, List.map_cons, performAll_append]
        rw [performAll_cons, ← performAll_concat,
          ← performAll_perform hkeys]
        rfl
      | failed performed =>
        refine ⟨_, .writing, ?_⟩
        rw [List.append_assoc, List.singleton_append]
        cases performed with
        | false => rfl
        | true =>
          exact performAll_perform_of_mem
            (List.mem_map_of_mem (List.mem_append_right _ (List.mem_cons_self ..)))

theorem Batched.proceed (h : s.Batched b) (hs : s.proceedStep o = some s') : s'.Batched b := by
  obtain ⟨left, hleft, rfl⟩ := h
  rw [proceedStep] at hs
  generalize s.worker = w at *
  cases hleft with
  | acking | reopening | flushed => cases hs
  | @writing attempt todo failed =>
    cases todo with
    | cons => cases hs
    | nil =>
      rw [List.append_nil]
      cases failed with
      | nil =>
        cases hs
        exact ⟨_, .flushed, rfl⟩
      | cons e failed =>
        dsimp only at hs
        split at hs <;> cases hs
        · exact ⟨_, .writing, rfl⟩
        · exact ⟨_, .reopening, rfl⟩

theorem Batched.step {a : Act} (h : s.Batched b) (hturn : s.inTurn a = true)
    (hs : s.step o a = some s') : s'.Batched b := by
  cases a with
  | apply reply =>
    refine h.apply (fun hok => ?_) hs
    simpa [inTurn, hok] using hturn
  | proceed => exact h.proceed hs
  | ack =>
    obtain ⟨left, hleft, rfl⟩ := h
    rw [Store.step] at hs
    generalize s.worker = w at *
    cases hleft with
    | writing | reopening | flushed => cases hs
    | acking =>
      cases hs
      exact ⟨_, .writing, rfl⟩
  | _ => cases hturn

def twoWrites : Store :=
  { newStore (fun _ => none) [] with
    worker := .writing 0 [⟨0, setRecord "alice" [1]⟩, ⟨1, setRecord "alice" [2]⟩] [] }

/-- Both writes fail, the second one after it has been performed, and are tried again. -/
def retriedActs : List Act :=
  [.apply (.failed false), .apply (.failed true), .proceed, .apply .ok, .ack, .apply .ok, .ack,
    .proceed]

end Batch

end Store

end RanGame.Storage
