import RanGame.Storage.Steps

/-!
# Where the writes are

The store moves writes between a queue, the hands of its worker, a log, the backend and the dead
letters. `Traffic` keeps only that. The log keeps every record until the file is truncated, so while
a replay runs a record of the log is also in hand or has been applied.
-/

namespace RanGame.Storage

open Function Machine

structure Traffic where
  queue : List Entry
  /-- In the hands of the worker or of `Close`. -/
  held : List Entry
  wal : List Entry
  accepted : List Entry
  applied : List Entry
  dead : List Entry
  lost : List Entry
  replaying : Bool

namespace Traffic

/-- What can happen to the writes. `Entering` are those about to be put somewhere; only under
`GivingUp` is one dropped. -/
inductive Step (Entering : Entry → Prop) (GivingUp : Prop) (t : Traffic) : Traffic → Prop
  | still : Step Entering GivingUp t t
  | enqueue (e : Entry) (he : Entering e) : Step Entering GivingUp t
      { t with queue := t.queue ++ [e], accepted := t.accepted ++ [e] }
  | spill (e : Entry) (he : Entering e) (hr : t.replaying = false) : Step Entering GivingUp t
      { t with wal := t.wal ++ [e], accepted := t.accepted ++ [e] }
  | refuse (e : Entry) (written : List Entry) (he : Entering e) (hr : t.replaying = false)
      (hw : written ⊆ [e]) : Step Entering GivingUp t
      { t with wal := t.wal ++ written, dead := t.dead ++ [e] }
  | take (e : Entry) (rest : List Entry) (hq : t.queue = e :: rest) (hr : t.replaying = false) :
      Step Entering GivingUp t { t with queue := rest, held := t.held ++ [e] }
  | apply (e : Entry) (rest : List Entry) (hh : t.held = e :: rest) : Step Entering GivingUp t
      { t with held := rest, applied := t.applied ++ [e] }
  | fail (e : Entry) (held performed : List Entry) (he : e ∈ t.held) (hh : held.Perm t.held)
      (hp : performed ⊆ [e]) : Step Entering GivingUp t
      { t with held := held, applied := t.applied ++ performed }
  | abandon (e : Entry) (performed : List Entry) (he : e ∈ t.held) (hr : t.replaying = true)
      (hp : performed ⊆ [e]) : Step Entering GivingUp t
      { t with held := [], applied := t.applied ++ performed, replaying := false }
  | log (e : Entry) (rest : List Entry) (hh : t.held = e :: rest) (hr : t.replaying = false) :
      Step Entering GivingUp t { t with held := rest, wal := t.wal ++ [e] }
  | bury (e : Entry) (rest written performed : List Entry) (hh : t.held = e :: rest)
      (hr : t.replaying = false) (hw : written ⊆ [e]) (hp : performed ⊆ [e]) :
      Step Entering GivingUp t
      { t with held := rest, wal := t.wal ++ written, applied := t.applied ++ performed,
               dead := t.dead ++ [e] }
  | lose (e : Entry) (hg : GivingUp) (hh : t.held = [e]) (hr : t.replaying = false) :
      Step Entering GivingUp t { t with held := [], lost := t.lost ++ [e] }
  | replay (hh : t.held = []) : Step Entering GivingUp t { t with held := t.wal, replaying := true }
  | truncate (hh : t.held = []) (hr : t.replaying = true) : Step Entering GivingUp t
      { t with wal := [], replaying := false }
  | leave (hh : t.held = []) : Step Entering GivingUp t { t with replaying := false }

/-- Not yet in the backend: in the queue, in hand or in the log. -/
def Pending (t : Traffic) (e : Entry) : Prop := e ∈ t.queue ∨ e ∈ t.held ∨ e ∈ t.wal

/-- In one of the places a write can be in. -/
def Accounted (t : Traffic) (e : Entry) : Prop :=
  t.Pending e ∨ e ∈ t.applied ∨ e ∈ t.dead ∨ e ∈ t.lost

/-- Every accepted write is somewhere, and a replay has in hand the records of the log it has not
applied. -/
structure Conserved (t : Traffic) : Prop where
  accounted : ∀ e ∈ t.accepted, t.Accounted e
  replayed : t.replaying = true → ∀ e ∈ t.wal, e ∈ t.held ∨ e ∈ t.applied
  held_subset : t.replaying = true → t.held ⊆ t.wal

variable {Entering : Entry → Prop} {GivingUp : Prop} {t t' : Traffic} {e : Entry}

theorem Step.of_eq {u : Traffic} (h : Step Entering GivingUp t u) (hu : t' = u) :
    Step Entering GivingUp t t' :=
  hu ▸ h

theorem Step.pending (h : Step Entering GivingUp t t') (he : t'.Pending e) :
    t.Pending e ∨ Entering e := by
  unfold Pending at *
  cases h with
  | refuse x written hx hr hw | fail x held performed hx hh
  | bury x rest written performed hh hr hw | _ => grind

theorem Step.accepted (h : Step Entering GivingUp t t') (he : e ∈ t'.accepted) :
    e ∈ t.accepted ∨ t'.Pending e := by
  unfold Pending
  cases h with
  | enqueue x hx | spill x hx => grind
  | _ => exact .inl he

/-- A write that is somewhere stays somewhere. Only the truncation of the log needs more than the
two states. -/
theorem Step.accounted (h : Step Entering GivingUp t t') (hc : t.Conserved)
    (he : t.Accounted e) : t'.Accounted e := by
  have hreplayed := hc.replayed
  have hsubset := hc.held_subset
  unfold Accounted Pending at *
  cases h with
  | truncate hh hr | abandon x performed hx hr | _ => grind

/-- **Every step conserves the writes.** -/
theorem Conserved.step (hc : t.Conserved) (h : Step Entering GivingUp t t') : t'.Conserved := by
  refine ⟨fun e he => ?_, ?_, ?_⟩
  · rcases h.accepted he with he | he
    · exact h.accounted hc (hc.accounted e he)
    · exact .inl he
  · have hreplayed := hc.replayed
    cases h with
    | replay hh => exact fun _ e he => .inl he
    | _ => grind
  · have hsubset := hc.held_subset
    cases h with
    | replay hh => exact fun _ => List.Subset.refl _
    | _ => grind

/-- What is under way or in the backend has been accepted, or is a dead letter too. -/
def Owned (t : Traffic) : Prop := ∀ e, t.Pending e ∨ e ∈ t.applied → e ∈ t.accepted ∨ e ∈ t.dead

theorem Owned.step (ho : t.Owned) (h : Step Entering GivingUp t t') : t'.Owned := by
  unfold Owned Pending at *
  cases h with
  | _ => grind

theorem Step.lost (h : Step Entering GivingUp t t') : t'.lost = t.lost ∨ GivingUp := by
  cases h with
  | lose x hg => exact .inr hg
  | _ => exact .inl rfl

end Traffic

/-! ### The store's traffic -/

namespace Store

def traffic (s : Store) : Traffic :=
  ⟨s.queue, s.worker.held, s.wal, s.accepted, s.applied, s.dead, s.lost, s.worker.inReplay⟩

/-- A call that has been admitted and has not yet put its write anywhere. -/
def Entering (s : Store) (e : Entry) : Prop :=
  s.calls e.id = .sending e.record ∨ s.calls e.id = .spilling e.record

/-- `Close` appends to the log, the append fails and `Close` goes on. -/
def GivingUp (s : Store) (a : Act) : Prop :=
  a = .append (.failed false) ∧ s.worker.appendsAtClose = true

variable {o : Options} {s s' : Store}

@[simp] theorem held_afterReplay (final : Bool) : (Worker.afterReplay final).held = [] := by
  cases final <;> rfl

@[simp] theorem inReplay_afterReplay (final : Bool) :
    (Worker.afterReplay final).inReplay = false := by
  cases final <;> rfl

theorem still_traffic {P : Prop} (h : s'.traffic = s.traffic) :
    s.traffic.Step s.Entering P s'.traffic :=
  Traffic.Step.still.of_eq h

/-- **Every action of the store is a step of its traffic.** -/
theorem step_traffic {a : Act} (h : s.step o a = some s') :
    s.traffic.Step s.Entering (s.GivingUp a) s'.traffic := by
  cases happens_of_step h with
  -- clients
  | send hi hroom => exact (Traffic.Step.enqueue ⟨_, _⟩ (.inl hi)).of_eq rfl
  | spill hi hcan hfree => exact (Traffic.Step.spill ⟨_, _⟩ (.inr hi) hfree).of_eq rfl
  | spillFailed hi hcan hfree =>
    exact (Traffic.Step.refuse ⟨_, _⟩ _ (.inr hi) hfree (Append.leaves_subset _ _)).of_eq rfl
  -- filling the batch
  | take hw hq hlt => refine (Traffic.Step.take _ _ hq ?_).of_eq ?_ <;> simp [traffic, hw]
  | closeTake hw hq => refine (Traffic.Step.take _ _ hq ?_).of_eq ?_ <;> simp [traffic, hw]
  -- writing to the backend
  | @write attempt e todo failed hw =>
    refine (Traffic.Step.apply e (todo ++ failed) ?_).of_eq ?_ <;> simp [traffic, land, hw]
  | @restore e todo final hw =>
    refine (Traffic.Step.apply e todo ?_).of_eq ?_ <;> simp [traffic, land, hw]
  | @closeWrite e hw => refine (Traffic.Step.apply e [] ?_).of_eq ?_ <;> simp [traffic, land, hw]
  | @writeFailed attempt e todo failed p hw =>
    refine (Traffic.Step.fail e (todo ++ (failed ++ [e])) _ ?_ ?_
      (Reply.performs_subset (.failed p) e)).of_eq ?_
    · simp [traffic, hw]
    · simpa [traffic, hw] using List.perm_append_singleton e (todo ++ failed)
    · simp [traffic, land, hw]
  | @restoreFailed e todo final p hw =>
    refine (Traffic.Step.abandon e _ ?_ ?_ (Reply.performs_subset (.failed p) e)).of_eq ?_ <;>
      simp [traffic, land, hw]
  | @closeRefused e p hw =>
    refine (Traffic.Step.fail e [e] _ ?_ ?_ (Reply.performs_subset (.failed p) e)).of_eq ?_ <;>
      simp [traffic, land, hw]
  | @closeBury e p hw =>
    refine (Traffic.Step.bury e [] [] _ ?_ ?_ (List.nil_subset _)
      (Reply.performs_subset (.failed p) e)).of_eq ?_ <;> simp [traffic, land, hw]
  -- appending to the log
  | @append e todo tripped hcan hw =>
    refine (Traffic.Step.log e todo ?_ ?_).of_eq ?_ <;> simp [traffic, log, hw]
  | @appendFailed e todo tripped w hcan hw =>
    refine (Traffic.Step.bury e todo _ [] ?_ ?_ (Append.leaves_subset (.failed w) e)
      (List.nil_subset _)).of_eq ?_
    · simp [traffic, hw]
    · simp [traffic, hw]
    · split <;> simp [traffic, log, hw]
  | @closeAppend e out hcan hw =>
    rcases hout : out.writes with - | -
    · have hgive : s.GivingUp (.append out) := by
        cases out with
        | ok => cases hout
        | failed w => exact ⟨congrArg (Act.append ∘ Append.failed) hout, by rw [hw]; rfl⟩
      refine (Traffic.Step.lose e hgive ?_ ?_).of_eq ?_ <;>
        simp [traffic, log, Append.leaves, hw, hout]
    · refine (Traffic.Step.log e [] ?_ ?_).of_eq ?_ <;> simp [traffic, log, Append.leaves, hw, hout]
  -- replaying the log
  | replay hw | closeReplay hw =>
    split
    · exact (Traffic.Step.replay (by simp [traffic, hw])).of_eq (by simp [traffic])
    · exact still_traffic (by simp [traffic, hw])
  | @truncate done final hw =>
    cases done with
    | true => refine (Traffic.Step.truncate ?_ ?_).of_eq ?_ <;> simp [traffic, hw]
    | false => refine (Traffic.Step.leave ?_).of_eq ?_ <;> simp [traffic, hw]
  | checkDeadline hw => split <;> exact still_traffic (by simp [traffic, hw])
  -- the others move no write
  | tick hw | full hw | dry hw | batched hw | closeDry hw | ack hw | written hw | retry hw
  | giveUp hw | dump hw | dumped hw | reopenAgain hw | reopen hw | workerTrip hw | stop hw
  | finish hw => exact still_traffic (by simp [traffic, hw])
  | _ => exact .still

/-! ### Runs -/

/-- The accepted writes are those of the calls that returned `nil`. -/
def Registered (s : Store) : Prop := ∀ e : Entry, s.calls e.id = .accepted e.record ↔ e ∈ s.accepted

theorem Registered.step {a : Act} (hr : s.Registered) (h : s.step o a = some s') :
    s'.Registered := by
  intro e
  rcases ha : a.client with _ | i
  · obtain ⟨hcalls, hacc⟩ := calls_of_step ha h
    rw [hcalls, hacc]
    exact hr e
  · obtain ⟨hnot, c, hcalls, hacc⟩ := call_of_step ha h
    rw [hcalls, hacc, List.mem_append, ← hr e]
    by_cases hi : e.id = i
    · -- the call had not been accepted, so none of its writes had
      subst hi
      rw [update_self]
      obtain ⟨id, r⟩ := e
      have := hnot r
      cases c <;> simp_all [eq_comm]
    · rw [update_of_ne hi]
      obtain ⟨id, r⟩ := e
      cases c <;> simp_all

theorem registered_newStore (backend : KeyedStore Key Bytes) (old : List WalRecord) :
    (newStore backend old).Registered := by
  rintro ⟨i, r⟩
  simp only [newStore, List.mem_mapIdx]
  constructor
  · intro h
    split at h
    next r' hget =>
      obtain ⟨hi, rfl⟩ := List.getElem?_eq_some_iff.mp hget
      exact ⟨i, hi, by simpa using h⟩
    · cases h
  · rintro ⟨j, hj, hentry⟩
    obtain ⟨rfl, rfl⟩ := Entry.mk.inj hentry
    simp [hj]

theorem conserved_newStore (backend : KeyedStore Key Bytes) (old : List WalRecord) :
    (newStore backend old).traffic.Conserved :=
  ⟨fun _ he => .inl (.inr (.inr he)), fun h => (by cases h), fun h => (by cases h)⟩

variable {backend : KeyedStore Key Bytes} {old : List WalRecord} {acts : List Act}

/-- **In every run, every accepted write is somewhere.** -/
theorem conserved_of_run (hrun : run (step o) (newStore backend old) acts = some s) :
    s.traffic.Conserved :=
  invariant_of_run (I := fun s => s.traffic.Conserved)
    (fun _ _ _ hc _ h => hc.step (step_traffic h)) (conserved_newStore backend old)
    along_true hrun

theorem registered_of_run (hrun : run (step o) (newStore backend old) acts = some s) :
    s.Registered :=
  invariant_of_run (fun _ _ _ hr _ h => hr.step h) (registered_newStore backend old) along_true hrun

theorem calls_of_run {i : ℕ} {s₀ : Store} (hrun : run (step o) s₀ acts = some s)
    (hi : ∀ a ∈ acts, a.client ≠ some i) : s.calls i = s₀.calls i := by
  refine invariant_of_run (I := fun s => s.calls i = s₀.calls i) ?_ rfl
    (along_of_forall_mem hi) hrun
  intro s a s' hs ha h
  rw [← hs]
  rcases hc : a.client with _ | j
  · rw [(calls_of_step hc h).1]
  · obtain ⟨-, c, hcalls, -⟩ := call_of_step hc h
    have hij : i ≠ j := fun hij => ha (hij ▸ hc)
    rw [hcalls, update_of_ne hij]

end Store

end RanGame.Storage
