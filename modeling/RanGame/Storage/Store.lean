import RanGame.Lib.Bytes
import RanGame.Lib.KeyedStore
import RanGame.Lib.Machine
import RanGame.Storage.Breaker

/-!
# The write-back store

`internal/storage/managed.go` and the calls it makes into `wal.go`: a bounded queue in front of a
backend, a worker that flushes it in batches, a log on disk for what does not fit or cannot be
written, and a breaker for each table. The flush worker and the goroutine inside `Close` never run
together, so one program counter, `Worker`, serves both. A backend call that fails may still have
been performed, and an append that fails may still have left its record in the file.
-/

namespace RanGame.Storage

/-! ### Records and configuration -/

/-- One write of the queue or the log. -/
structure WalRecord where
  ts : ℤ
  table : String
  key : String
  /-- The serialised value, empty for a removal. -/
  value : Bytes
  deleted : Bool
  deriving DecidableEq, Repr

/-- A record and the call it comes from, which tells equal records apart. -/
structure Entry where
  id : ℕ
  record : WalRecord
  deriving DecidableEq, Repr

/-- The address of a value: table and key. -/
abbrev Key := String × String

def Entry.key (e : Entry) : Key := (e.record.table, e.record.key)

/-- What `apply` asks of the backend: `Delete` or `Put`. -/
def Entry.update (e : Entry) : Update Key Bytes where
  key := e.key
  val := if e.record.deleted then none else some e.record.value

/-- The options as the caller gives them; durations in nanoseconds. -/
structure RawOptions where
  queueSize : ℤ := 0
  maxBatch : ℤ := 0
  maxRetry : ℤ := 0
  breakerCooldown : ℤ := 0
  wal : Bool := false

structure Options where
  queueSize : ℕ
  maxBatch : ℕ
  /-- Passes over a failing batch after the first. -/
  maxRetry : ℕ
  /-- Time an open breaker waits before it lets a probe through. -/
  breakerCooldown : ℤ
  wal : Bool
  queueSize_pos : 0 < queueSize
  maxBatch_pos : 0 < maxBatch

/-- The defaults of `NewStore`. -/
def RawOptions.fill (r : RawOptions) : Options where
  queueSize := if r.queueSize ≤ 0 then 4096 else r.queueSize.toNat
  maxBatch := if r.maxBatch ≤ 0 then 256 else r.maxBatch.toNat
  maxRetry := if r.maxRetry < 0 then 2 else r.maxRetry.toNat
  breakerCooldown := if r.breakerCooldown ≤ 0 then 5 * 1000000000 else r.breakerCooldown
  wal := r.wal
  queueSize_pos := by split <;> omega
  maxBatch_pos := by split <;> omega

/-! ### Program counters -/

/-- The errors of `Set` and `Del`. -/
inductive StoreError
  | marshal
  | shuttingDown
  | breakerOpen (table : String)
  | overflow (table : String)
  deriving DecidableEq, Repr

/-- The framework code of an error; a marshalling error is returned as it is and has none. -/
def StoreError.code : StoreError → Option ℕ
  | .marshal => none
  | .shuttingDown => some 4005
  | .breakerOpen _ | .overflow _ => some 4003

def StoreError.text : StoreError → Option String
  | .marshal => none
  | .shuttingDown => some "storage shutting down"
  | .breakerOpen table => some ("breaker open for table " ++ table)
  | .overflow table => some ("writeback overflow for table " ++ table)

/-- An asynchronous write as the caller asks for it; `raw` is the outcome of `json.Marshal`. -/
inductive Op
  | set (table key : String) (raw : Option Bytes)
  | del (table key : String)
  deriving DecidableEq, Repr

def Op.record (now : ℤ) : Op → Option WalRecord
  | .set table key raw => raw.map fun value => ⟨now, table, key, value, false⟩
  | .del table key => some ⟨now, table, key, [], true⟩

/-- Where a `Set` or `Del` call is. -/
inductive Call
  | notStarted
  | checking (r : WalRecord)
  | admitting (r : WalRecord)
  | sending (r : WalRecord)
  /-- The queue was full: about to append to the log. -/
  | spilling (r : WalRecord)
  /-- The log has failed too and the record is a dead letter: about to trip the breaker. -/
  | tripping (r : WalRecord)
  | accepted (r : WalRecord)
  | rejected (err : StoreError)
  deriving DecidableEq, Repr

/-- Has the call returned, or not begun? -/
def Call.settled : Call → Bool
  | .notStarted | .accepted _ | .rejected _ => true
  | _ => false

/-- Where a `SetSync` call is. `before` are the calls accepted for its key when it began. -/
inductive SyncCall
  | notStarted
  | putting (u : Update Key Bytes) (before : List ℕ)
  | put (before : List ℕ)
  | returned
  | failed
  deriving DecidableEq, Repr

/-- The calls that a `SetSync` came after. -/
def SyncCall.before : SyncCall → List ℕ
  | .putting _ before | .put before => before
  | _ => []

/-- Where the flush worker is or, after it has stopped, the goroutine in `Close`. -/
inductive Worker
  /-- In `select`, waiting for a tick or for the close channel. -/
  | idle
  | draining (batch : List Entry)
  /-- `writeBatch`, in pass `attempt`: records still to write and records that failed. -/
  | writing (attempt : ℕ) (todo failed : List Entry)
  /-- Retries exhausted: reporting each table of the batch to the breaker once. -/
  | reopening (batch todo : List Entry) (reopened : List String)
  /-- Appending what failed to the log, one by one. -/
  | dumping (todo : List Entry) (tripped : List String)
  | flushed
  /-- Replaying the log with its mutex held; `final` inside `Close`. -/
  | replaying (todo : List Entry) (final : Bool)
  | closeDraining
  | closeApplying (e : Entry)
  | closeAppending (e : Entry)
  /-- `Close`, at the deadline check. -/
  | closeChecking
  | closeDrained
  | closeFinishing
  | closed
  /-- The backend has taken `e`: about to tell the breaker, then `next`. -/
  | acking (e : Entry) (next : Worker)
  /-- A record has become a dead letter: about to trip its table, then `next`. -/
  | tripping (table : String) (next : Worker)
  deriving DecidableEq, Repr

/-- Where `tryReplayWAL` returns to. -/
def Worker.afterReplay (final : Bool) : Worker := if final then .closeFinishing else .idle

/-- Is the mutex of the log held by a replay? -/
@[simp] def Worker.inReplay : Worker → Bool
  | .replaying _ _ => true
  | .acking _ next | .tripping _ next => next.inReplay
  | _ => false

/-- Is `Close` about to append to the log? -/
def Worker.appendsAtClose : Worker → Bool
  | .closeAppending _ => true
  | _ => false

/-- The records in the worker's hands: its batch, or what a replay has still to apply. -/
@[simp] def Worker.held : Worker → List Entry
  | .draining batch => batch
  | .writing _ todo failed => todo ++ failed
  | .reopening batch _ _ => batch
  | .dumping todo _ | .replaying todo _ => todo
  | .closeApplying e | .closeAppending e => [e]
  | .acking _ next | .tripping _ next => next.held
  | _ => []

/-! ### State and actions -/

/-- A backend call succeeds, or fails, having been performed or not. -/
inductive Reply
  | ok
  | failed (performed : Bool)
  deriving DecidableEq, Repr

/-- Did the write take place? -/
def Reply.lands : Reply → Bool
  | .ok => true
  | .failed performed => performed

/-- The write `e` if it took place. -/
def Reply.performs (reply : Reply) (e : Entry) : List Entry := if reply.lands then [e] else []

@[simp] theorem Reply.performs_ok (e : Entry) : Reply.ok.performs e = [e] := rfl

theorem Reply.performs_subset (reply : Reply) (e : Entry) : reply.performs e ⊆ [e] := by
  unfold performs
  split <;> simp

/-- An append to the log succeeds, or fails, having left its record or not. -/
inductive Append
  | ok
  | failed (written : Bool)
  deriving DecidableEq, Repr

def Append.writes : Append → Bool
  | .ok => true
  | .failed written => written

/-- The record `e` if it is in the file. -/
def Append.leaves (out : Append) (e : Entry) : List Entry := if out.writes then [e] else []

@[simp] theorem Append.leaves_ok (e : Entry) : Append.ok.leaves e = [e] := rfl

theorem Append.leaves_subset (out : Append) (e : Entry) : out.leaves e ⊆ [e] := by
  unfold leaves
  split <;> simp

/-- The state of a store, its clients, its log and its backend. -/
structure Store where
  queue : List Entry
  wal : List Entry
  walClosed : Bool
  breaker : TableBreaker
  closing : Bool
  /-- The flush worker, then `Close`. -/
  worker : Worker
  backend : KeyedStore Key Bytes
  calls : ℕ → Call
  syncs : ℕ → SyncCall
  /-- Writes accepted, in the order of the sends and appends that accepted them. -/
  accepted : List Entry
  /-- Writes of the worker and of `Close` that the backend performed, in order. -/
  applied : List Entry
  dead : List Entry
  /-- Writes given up with no report. -/
  lost : List Entry
  /-- Calls that a `SetSync` which has returned came after. -/
  superseded : List ℕ
  /-- Writes of superseded calls performed all the same. -/
  late : List Entry

/-- The atomic actions. A call is named by its number. -/
inductive Act
  | call (i : ℕ) (op : Op) (now : ℤ)
  | load (i : ℕ)
  | allow (i : ℕ) (now : ℤ)
  | send (i : ℕ)
  | spill (i : ℕ) (out : Append)
  | trip (i : ℕ) (now : ℤ)
  | syncCall (i : ℕ) (table key : String) (raw : Option Bytes)
  | syncPut (i : ℕ) (reply : Reply)
  | syncReturn (i : ℕ)
  | tick
  | drain
  | apply (reply : Reply)
  | ack
  | proceed
  | reopen (now : ℤ)
  | append (out : Append)
  | workerTrip (now : ℤ)
  | replay (readable : Bool)
  | truncate (done : Bool)
  | close
  | stop
  | checkDeadline (expired : Bool)
  | finish
  deriving DecidableEq, Repr

/-- The `Set` or `Del` call that an action belongs to. -/
def Act.client : Act → Option ℕ
  | .call i _ _ | .load i | .allow i _ | .send i | .spill i _ | .trip i _ => some i
  | _ => none

/-- The `SetSync` call that an action belongs to. -/
def Act.sync : Act → Option ℕ
  | .syncCall i _ _ _ | .syncPut i _ | .syncReturn i => some i
  | _ => none

/-- The `SetSync` call that returns with an action. -/
def Act.returning : Act → Option ℕ
  | .syncReturn i => some i
  | _ => none

namespace Store

variable (o : Options) (s : Store)

def setCall (i : ℕ) (c : Call) : Store := { s with calls := Function.update s.calls i c }

def setSync (i : ℕ) (c : SyncCall) : Store := { s with syncs := Function.update s.syncs i c }

/-- A backend call on behalf of `e`, as far as the backend is concerned. -/
def land (e : Entry) (reply : Reply) : Store :=
  { s with
    backend := if reply.lands then s.backend.perform e.update else s.backend
    applied := s.applied ++ reply.performs e
    late := s.late ++ if e.id ∈ s.superseded then reply.performs e else [] }

/-- An append of `e`, as far as the file is concerned. -/
def log (e : Entry) (out : Append) : Store :=
  { s with wal := s.wal ++ out.leaves e }

/-- Can an append go this way? Without an open log it fails and writes nothing. -/
def canLog (out : Append) : Bool := (o.wal && !s.walClosed) || out = .failed false

/-- The first call of `enqueue` up to its outcome: what the select statement does. -/
def send (i : ℕ) (r : WalRecord) : Store :=
  if s.queue.length < o.queueSize then
    { s.setCall i (.accepted r) with
      queue := s.queue ++ [⟨i, r⟩], accepted := s.accepted ++ [⟨i, r⟩] }
  else s.setCall i (.spilling r)

/-- `spill` up to the point where the breaker is tripped. -/
def spill (i : ℕ) (r : WalRecord) (out : Append) : Store :=
  match out with
  | .ok => { (s.log ⟨i, r⟩ .ok).setCall i (.accepted r) with accepted := s.accepted ++ [⟨i, r⟩] }
  | .failed w =>
    { (s.log ⟨i, r⟩ (.failed w)).setCall i (.tripping r) with dead := s.dead ++ [⟨i, r⟩] }

/-- The outcome of one backend call for the worker or `Close`. -/
def applyStep (reply : Reply) : Option Store :=
  match s.worker with
  | .writing attempt (e :: todo) failed =>
    some { s.land e reply with
      worker := match reply with
        | .ok => .acking e (.writing attempt todo failed)
        | .failed _ => .writing attempt todo (failed ++ [e]) }
  | .replaying (e :: todo) final =>
    some { s.land e reply with
      worker := match reply with
        | .ok => .acking e (.replaying todo final)
        | .failed _ => .afterReplay final }
  | .closeApplying e =>
    match reply with
    | .ok => some { s.land e .ok with worker := .acking e .closeChecking }
    | .failed p =>
      if o.wal then some { s.land e (.failed p) with worker := .closeAppending e }
      else some { s.land e (.failed p) with dead := s.dead ++ [e], worker := .closeChecking }
  | _ => none

/-- The outcome of one append for the worker or `Close`. `Close` does not look at the error. -/
def appendStep (out : Append) : Option Store :=
  if s.canLog o out then
    match s.worker with
    | .dumping (e :: todo) tripped =>
      match out with
      | .ok => some { s.log e .ok with worker := .dumping todo tripped }
      | .failed w =>
        some { s.log e (.failed w) with
          dead := s.dead ++ [e]
          worker :=
            if e.record.table ∈ tripped then .dumping todo tripped
            else .tripping e.record.table (.dumping todo (e.record.table :: tripped)) }
    | .closeAppending e =>
      some { s.log e out with
        lost := if out.writes then s.lost else s.lost ++ [e]
        worker := .closeChecking }
    | _ => none
  else none

/-- `drainOne` in `flushBatch` and in `Close`, and what follows it. -/
def drainStep : Option Store :=
  match s.worker, s.queue with
  | .draining batch, e :: rest =>
    if batch.length < o.maxBatch then
      some { s with queue := rest, worker := .draining (batch ++ [e]) }
    else some { s with worker := .writing 0 batch [] }
  | .draining [], [] => some { s with worker := .flushed }
  | .draining (b :: batch), [] => some { s with worker := .writing 0 (b :: batch) [] }
  | .closeDraining, e :: rest => some { s with queue := rest, worker := .closeApplying e }
  | .closeDraining, [] => some { s with worker := .closeDrained }
  | _, _ => none

/-- The transitions of `writeBatch` between its loops. -/
def proceedStep : Option Store :=
  match s.worker with
  | .writing _ [] [] => some { s with worker := .flushed }
  | .writing attempt [] (e :: failed) =>
    if attempt < o.maxRetry then
      some { s with worker := .writing (attempt + 1) (e :: failed) [] }
    else some { s with worker := .reopening (e :: failed) (e :: failed) [] }
  | .reopening batch [] _ => some { s with worker := .dumping batch [] }
  | .dumping [] _ => some { s with worker := .flushed }
  | _ => none

/-- The start of `tryReplayWAL`. An unreadable file ends it before anything is applied. -/
def replayStep (readable : Bool) : Option Store :=
  match s.worker with
  | .flushed =>
    some { s with
      worker := if o.wal && !s.walClosed && readable then .replaying s.wal false else .idle }
  | .closeDrained =>
    some { s with
      worker :=
        if o.wal && !s.walClosed && readable then .replaying s.wal true else .closeFinishing }
  | _ => none

def step : Act → Option Store
  | .call i op now =>
    if s.calls i = .notStarted then
      match op.record now with
      | none => some (s.setCall i (.rejected .marshal))
      | some r => some (s.setCall i (.checking r))
    else none
  | .load i =>
    match s.calls i with
    | .checking r =>
      some (s.setCall i (if s.closing then .rejected .shuttingDown else .admitting r))
    | _ => none
  | .allow i now =>
    match s.calls i with
    | .admitting r =>
      let answer := s.breaker.allow o.breakerCooldown now r.table
      some { s.setCall i (if answer.1 then .sending r else .rejected (.breakerOpen r.table)) with
        breaker := answer.2 }
    | _ => none
  | .send i =>
    match s.calls i with
    | .sending r => some (s.send o i r)
    | _ => none
  | .spill i out =>
    match s.calls i with
    | .spilling r => if s.canLog o out && !s.worker.inReplay then some (s.spill i r out) else none
    | _ => none
  | .trip i now =>
    match s.calls i with
    | .tripping r =>
      some { s.setCall i (.rejected (.overflow r.table)) with
        breaker := s.breaker.trip now r.table }
    | _ => none
  | .syncCall i table key raw =>
    if s.syncs i = .notStarted then
      match raw with
      | none => some (s.setSync i .failed)
      | some value =>
        some (s.setSync i (.putting ⟨(table, key), some value⟩
          ((s.accepted.filter fun e => e.key = (table, key)).map Entry.id)))
    else none
  | .syncPut i reply =>
    match s.syncs i with
    | .putting u before =>
      some { s.setSync i (if reply = .ok then .put before else .failed) with
        backend := if reply.lands then s.backend.perform u else s.backend }
    | _ => none
  | .syncReturn i =>
    match s.syncs i with
    | .put before => some { s.setSync i .returned with superseded := s.superseded ++ before }
    | _ => none
  | .tick => if s.worker = .idle then some { s with worker := .draining [] } else none
  | .drain => s.drainStep o
  | .apply reply => s.applyStep o reply
  | .ack =>
    match s.worker with
    | .acking e next =>
      some { s with breaker := s.breaker.onSuccess e.record.table, worker := next }
    | _ => none
  | .proceed => s.proceedStep o
  | .reopen now =>
    match s.worker with
    | .reopening batch (e :: todo) reopened =>
      if e.record.table ∈ reopened then some { s with worker := .reopening batch todo reopened }
      else some { s with
        breaker := s.breaker.onFailure now e.record.table
        worker := .reopening batch todo (e.record.table :: reopened) }
    | _ => none
  | .append out => s.appendStep o out
  | .workerTrip now =>
    match s.worker with
    | .tripping table next => some { s with breaker := s.breaker.trip now table, worker := next }
    | _ => none
  | .replay readable => s.replayStep o readable
  | .truncate done =>
    match s.worker with
    | .replaying [] final =>
      some { s with wal := if done then [] else s.wal, worker := .afterReplay final }
    | _ => none
  | .close => some { s with closing := true }
  | .stop =>
    if s.worker = .idle ∧ s.closing then some { s with worker := .closeDraining } else none
  | .checkDeadline expired =>
    if s.worker = .closeChecking then
      some { s with worker := if expired then .closeDrained else .closeDraining }
    else none
  | .finish =>
    if s.worker = .closeFinishing then some { s with walClosed := true, worker := .closed }
    else none

end Store

/-- `NewStore` over a backend and an earlier log, whose records count as accepted first. -/
def newStore (backend : KeyedStore Key Bytes) (old : List WalRecord) : Store where
  queue := []
  wal := old.mapIdx Entry.mk
  walClosed := false
  breaker := .new
  closing := false
  worker := .idle
  backend := backend
  calls := fun i => match old[i]? with
    | some r => .accepted r
    | none => .notStarted
  syncs := fun _ => .notStarted
  accepted := old.mapIdx Entry.mk
  applied := []
  dead := []
  lost := []
  superseded := []
  late := []

/-- A store with a log, a queue of two and batches of one. -/
def sampleOptions : Options := RawOptions.fill { queueSize := 2, maxBatch := 1, wal := true }

/-- The record of a `Set` on the table `players` at time 0. -/
def setRecord (key : String) (value : Bytes) : WalRecord := ⟨0, "players", key, value, false⟩

/-- The actions of such a call up to the send. -/
def setActs (i : ℕ) (key : String) (value : Bytes) : List Act :=
  [.call i (.set "players" key (some value)) 0, .load i, .allow i 0, .send i]

end RanGame.Storage
