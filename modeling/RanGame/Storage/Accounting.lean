import RanGame.Storage.Traffic

/-!
# No accepted write disappears

A write the store has accepted is meant to be in the backend, in the log or among the dead letters
when `Close` returns. But `Close` ignores the error of an append; it leaves the drain loop at the
deadline with records still in the queue; and a client that loaded the closing flag before `Close`
set it may send after the drain loop has ended. `Orderly` excludes exactly these three steps.
-/

namespace RanGame.Storage

open Machine

/-- Has `Close` left its drain loop? -/
@[simp] def Worker.drained : Worker → Bool
  | .replaying _ final => final
  | .closeDrained | .closeFinishing | .closed => true
  | .acking _ next | .tripping _ next => next.drained
  | _ => false

namespace Store

/-- `Close` fails to append only after writing, meets its deadline only with an empty queue, and no
client sends once the drain loop has ended. -/
def Orderly (s : Store) (a : Act) : Prop :=
  (a = .append (.failed false) → s.worker.appendsAtClose = false) ∧
    (a = .checkDeadline true → s.queue = []) ∧
    (∀ i ∈ a.client, a = .send i → s.worker.drained = false)

instance (s : Store) (a : Act) : Decidable (s.Orderly a) := inferInstanceAs (Decidable (_ ∧ _ ∧ _))

variable {o : Options} {s s' : Store}

@[simp] theorem drained_afterReplay (final : Bool) :
    (Worker.afterReplay final).drained = final := by
  cases final <;> rfl

theorem not_givingUp {a : Act} (ha : s.Orderly a) : ¬ s.GivingUp a := by
  rintro ⟨hfail, hclose⟩
  simp [ha.1 hfail] at hclose

theorem drained_of_step {a : Act} (hdrain : a ≠ .drain)
    (hcheck : ∀ expired, a ≠ .checkDeadline expired) (h : s.step o a = some s')
    (hd : s'.worker.drained = true) : s.worker.drained = true := by
  cases happens_of_step h with
  | take | full | dry | batched | closeTake | closeDry => exact absurd rfl hdrain
  | checkDeadline => exact absurd rfl (hcheck _)
  | tick | write | writeFailed | closeWrite | closeRefused | closeBury | written | retry | giveUp
  | dump | dumped | reopenAgain | reopen | append | closeAppend | stop => cases hd
  | restore hw | restoreFailed hw | ack hw | workerTrip hw | truncate hw => simpa [hw] using hd
  | appendFailed | replay => split at hd <;> cases hd
  | closeReplay hw | finish hw => simp [hw]
  | _ => exact hd

/-- After its drain loop `Close` leaves an empty queue behind. -/
def DrainedEmpty (s : Store) : Prop := s.worker.drained = true → s.queue = []

theorem DrainedEmpty.step {a : Act} (hs : s.DrainedEmpty) (ha : s.Orderly a)
    (h : s.step o a = some s') : s'.DrainedEmpty := by
  intro hd
  cases a with
  | send i =>
    have hold := drained_of_step (by simp) (by simp) h hd
    simp [ha.2.2 i rfl rfl] at hold
  | drain =>
    cases happens_of_step h with
    | closeDry hw hq => exact hq
    | _ => cases hd
  | checkDeadline expired =>
    cases happens_of_step h with
    | checkDeadline hw =>
      cases expired with
      | true => exact ha.2.1 rfl
      | false => cases hd
  | _ =>
    rw [queue_of_step (by simp) (by simp) h]
    exact hs (drained_of_step (by simp) (by simp) h hd)

variable {backend : KeyedStore Key Bytes} {old : List WalRecord} {acts : List Act}

section

variable (hrun : run (step o) (newStore backend old) acts = some s)
  (horderly : Along (step o) Orderly (newStore backend old) acts)

include hrun horderly

theorem lost_of_run : s.lost = [] := by
  refine invariant_of_run (I := fun s => s.lost = []) ?_ rfl horderly hrun
  intro s a s' hlost ha h
  rcases (step_traffic h).lost with hsame | hgive
  · exact hsame.trans hlost
  · exact absurd hgive (not_givingUp ha)

theorem drainedEmpty_of_run : s.DrainedEmpty :=
  invariant_of_run (fun _ _ _ hs ha h => hs.step ha h) (fun h => by cases h) horderly hrun

end

/-- All calls have returned, and an accepted write is in neither backend nor log, nor a dead letter.
-/
def Vanished (s : Store) (e : Entry) : Prop :=
  s.worker = .closed ∧ (∀ i, (s.calls i).settled = true) ∧ s.calls e.id = .accepted e.record ∧
    e ∉ s.applied ∧ e ∉ s.wal ∧ e ∉ s.dead

/-- `Close` finds one record, which the backend refuses and the log takes; the final replay fails
too. -/
def refusedActs : List Act :=
  setActs 0 "alice" [1] ++ [Act.close, .stop, .drain, .apply (.failed false), .append .ok,
    .checkDeadline false, .drain, .replay true, .apply (.failed true), .finish]

/-- The backend refuses the record, the append fails, and `Close` goes on. -/
def failedAppendActs : List Act :=
  setActs 0 "alice" [1] ++ [Act.close, .stop, .drain, .apply (.failed false),
    .append (.failed false), .checkDeadline false, .drain, .replay true, .truncate true, .finish]

/-- The deadline passes when `Close` has written one record of two. -/
def deadlineActs : List Act :=
  setActs 1 "bob" [2] ++ setActs 0 "alice" [1] ++ [Act.close, .stop, .drain, .apply .ok, .ack,
    .checkDeadline true, .replay true, .truncate true, .finish]

/-- A `Set` that was admitted before `Close` sends after `Close` has returned. -/
def lateSendActs : List Act :=
  [.call 0 (.set "players" "alice" (some [1])) 0, .load 0, .allow 0 0, .close, .stop, .drain,
    .replay true, .truncate true, .finish, .send 0]

theorem vanished_of_run {e : Entry}
    (h : ∃ s, run (step o) (newStore backend old) acts = some s ∧ s.worker = .closed ∧
      (∀ i ∈ acts.filterMap Act.client, (s.calls i).settled = true) ∧
      s.calls e.id = .accepted e.record ∧ e ∉ s.applied ∧ e ∉ s.wal ∧ e ∉ s.dead) :
    ∃ s, run (step o) (newStore backend old) acts = some s ∧ s.Vanished e := by
  obtain ⟨s, hrun, hclosed, hnamed, hrest⟩ := h
  refine ⟨s, hrun, hclosed, fun i => ?_, hrest⟩
  by_cases hi : i ∈ acts.filterMap Act.client
  · exact hnamed i hi
  · have hne : ∀ a ∈ acts, a.client ≠ some i :=
      fun a ha hc => hi (List.mem_filterMap.mpr ⟨a, ha, hc⟩)
    rw [calls_of_run hrun hne]
    simp only [newStore]
    split <;> rfl

end Store

end RanGame.Storage
