import RanGame.Actor.Mailbox

/-!
# Joining a room

`internal/room/room.go`: `Manager.Join` puts a request with a reply channel into the mailbox of the
room actor and waits for the reply without a timeout. There is none if `OnJoin` panics, or if the
actor leaves the request in its mailbox when it stops. A `Script` says what a callback of the game
logic does. A handler is one action here, at its end.
-/

namespace RanGame.Room

open Function Machine Actor

/-- What a callback of the game logic does to the room, step by step. -/
inductive Script
  | done
  | panic
  /-- Kick a member: what `OnLeave` and `OnEmpty` do, and how the callback goes on. -/
  | kick (uid : String) (onLeave onEmpty rest : Script)
  /-- Close the room: what `OnDestroy` does, and how the callback goes on. -/
  | close (onDestroy rest : Script)

/-- The room as its goroutine sees it. -/
structure State where
  maxPlayers : ℕ
  /-- The members, in the order in which they joined. -/
  members : List String
  closing : Bool
  stops : Bool

/-- The room as a callback leaves it, and whether the callback panicked. -/
abbrev Outcome := State × Bool

/-- Go on if there was no panic. -/
def Outcome.andThen (o : Outcome) (f : State → Outcome) : Outcome := if o.2 then o else f o.1

namespace State

variable (r : State)

def handleLeave (onLeave onEmpty : State → Outcome) (uid : String) : Outcome :=
  if r.closing then (r, false)
  else if uid ∈ r.members then
    Outcome.andThen (onLeave { r with members := r.members.erase uid }) fun r =>
      if r.members = [] then onEmpty r else (r, false)
  else (r, false)

def doClose (onDestroy : State → Outcome) : Outcome :=
  if r.closing then (r, false)
  else Outcome.andThen (onDestroy { r with closing := true }) fun r =>
    ({ r with members := [], stops := true }, false)

end State

def Script.exec : Script → State → Outcome
  | .done, r => (r, false)
  | .panic, r => (r, true)
  | .kick uid onLeave onEmpty rest, r =>
    Outcome.andThen (r.handleLeave onLeave.exec onEmpty.exec uid) rest.exec
  | .close onDestroy rest, r => Outcome.andThen (r.doClose onDestroy.exec) rest.exec

inductive JoinErr
  /-- "room closing" -/
  | errNotInRoom
  | errRoomFull
  deriving DecidableEq

/-- `handleJoin`: the outcome, and the reply, if there is one. -/
def State.handleJoin (r : State) (onJoin : State → Outcome) (uid : String) :
    Outcome × Option (Option JoinErr) :=
  if r.closing then ((r, false), some (some .errNotInRoom))
  else if uid ∈ r.members then ((r, false), some none)
  else if r.maxPlayers ≤ r.members.length then ((r, false), some (some .errRoomFull))
  else
    let o := onJoin { r with members := r.members ++ [uid] }
    (o, if o.2 then none else some none)

/-- What an envelope for the room actor carries. -/
inductive Payload
  | join (uid : String)
  | leave (uid : String)
  | close
  | message (uid : String)
  | invoke
  deriving DecidableEq

def Payload.isJoin : Payload → Bool
  | .join _ => true
  | _ => false

/-- `OnMessage` and `Invoke`: the callback does `cb`, and `OnEmpty` after a leave `cb'`. -/
def State.handle (r : State) (cb cb' : Script) : Payload → Outcome × Option (Option JoinErr)
  | .join uid => r.handleJoin cb.exec uid
  | .leave uid => (r.handleLeave cb.exec cb'.exec uid, none)
  | .close => (r.doClose cb.exec, none)
  | .message uid => (if uid ∈ r.members then cb.exec r else (r, false), none)
  | .invoke => (cb.exec r, none)

/-- A room actor with `n` envelopes, each from one call of `Tell`. -/
structure RoomActor (n : ℕ) where
  proc : Process n
  room : State
  /-- What has been sent to the reply channel of each request. -/
  replies : Fin n → List (Option JoinErr)

/-- The engine does something, or a callback of the actor ends. -/
inductive RoomAct (n : ℕ)
  | act (a : ProcessAct n)
  /-- `Init` ends; `OnCreate` has done this. -/
  | init (onCreate : Script)
  | handle (cb cb' : Script)

/-- What only the callbacks of the room decide. Its `OnStop` does not panic. -/
def ofCallback {n : ℕ} : ProcessAct n → Bool
  | .initEnd _ | .handleEnd _ | .ctxStop | .onStopEnd true => true
  | _ => false

namespace RoomActor

variable {n : ℕ}

/-- The process, after a callback that may have called `ctx.Stop()`. -/
def settle (p : Process n) (r : State) : Process n := if r.stops then p.beginDrain else p

/-- The handler of envelope `i` ends. -/
def handleStep (pol : Policy) (payload : Fin n → Payload) (s : RoomActor n) (i : Fin n)
    (cb cb' : Script) : Option (RoomActor n) :=
  let o := s.room.handle cb cb' (payload i)
  ((settle s.proc o.1.1).step pol (.handleEnd o.1.2)).map fun p =>
    { proc := p
      room := o.1.1
      replies := update s.replies i (s.replies i ++ o.2.toList) }

def step (pol : Policy) (payload : Fin n → Payload) (s : RoomActor n) :
    RoomAct n → Option (RoomActor n)
  | .act a =>
    if ofCallback a then none else (s.proc.step pol a).map fun p => { s with proc := p }
  | .init onCreate =>
    ((settle s.proc (onCreate.exec s.room).1).step pol
      (.initEnd (onCreate.exec s.room).2)).map fun p =>
        { s with proc := p, room := (onCreate.exec s.room).1 }
  | .handle cb cb' =>
    match s.proc.run.current with
    | some i => s.handleStep pol payload i cb cb'
    | none => none

end RoomActor

/-- `CreateRoom`: a number of players that is not positive becomes eight. -/
def createRoom (n : ℕ) (clock maxPlayers : ℤ) : RoomActor n where
  proc := spawn n clock
  room :=
    { maxPlayers := if maxPlayers ≤ 0 then 8 else maxPlayers.toNat
      members := []
      closing := false
      stops := false }
  replies := fun _ => []

namespace RoomActor

variable {n : ℕ} {pol : Policy} {payload : Fin n → Payload} {s s' : RoomActor n}

/-- The process leaves nothing behind, and no handler of a join panics. -/
def Answering (pol : Policy) (payload : Fin n → Payload) (s : RoomActor n) : RoomAct n → Prop
  | .act a => s.proc.Emptied pol a
  | .init onCreate =>
    (settle s.proc (onCreate.exec s.room).1).Emptied pol (.initEnd (onCreate.exec s.room).2)
  | .handle cb cb' => ∀ i ∈ s.proc.run.current,
    (settle s.proc (s.room.handle cb cb' (payload i)).1.1).Emptied pol
        (.handleEnd (s.room.handle cb cb' (payload i)).1.2) ∧
      ((payload i).isJoin = true → (s.room.handle cb cb' (payload i)).1.2 = false)

instance (a : RoomAct n) : Decidable (s.Answering pol payload a) := by
  cases a <;> unfold Answering <;> infer_instance

section settle

variable {p : Process n} (r : State)

theorem settle_eq (p : Process n) : ∃ stopSig stopping,
    settle p r = { p with stopSig := stopSig, stopping := stopping } := by
  unfold settle
  split
  · exact ⟨_, _, rfl⟩
  · exact ⟨p.stopSig, p.stopping, rfl⟩

@[simp] theorem settle_run : (settle p r).run = p.run := by
  obtain ⟨_, _, h⟩ := settle_eq r p
  rw [h]

@[simp] theorem settle_mb : (settle p r).mb = p.mb := by
  obtain ⟨_, _, h⟩ := settle_eq r p
  rw [h]

theorem settled_settle (i : Fin n) : (settle p r).Settled i ↔ p.Settled i := by
  obtain ⟨_, _, h⟩ := settle_eq r p
  rw [h]
  rfl

theorem queued_settle (hq : p.Queued) : (settle p r).Queued := by
  obtain ⟨_, _, h⟩ := settle_eq r p
  rw [h]
  exact hq.of_same rfl rfl rfl (fun _ => .rfl) (fun _ hi => hi) hq.finished

end settle

variable {r : State} {cb cb' : Script} {i : Fin n} {a : RoomAct n}

theorem handleJoin_isSome {onJoin : State → Outcome} {uid : String}
    (h : (r.handleJoin onJoin uid).1.2 = false) : (r.handleJoin onJoin uid).2.isSome = true := by
  unfold State.handleJoin at h ⊢
  by_cases hc : r.closing = true
  · simp [hc]
  · by_cases hu : uid ∈ r.members
    · simp [hc, hu]
    · by_cases hm : r.maxPlayers ≤ r.members.length
      · simp [hc, hu, hm]
      · simp only [hc, hu, hm, Bool.false_eq_true, if_false] at h ⊢
        simp [h]

theorem reply_length_le {q : Payload} : (r.handle cb cb' q).2.toList.length ≤ 1 := by
  cases (r.handle cb cb' q).2 <;> simp

/-- Where the replies are: none before the handler has ended, and at most one after. -/
structure Replied (s : RoomActor n) : Prop where
  queued : s.proc.Queued
  none_before : ∀ i, ¬ s.proc.Settled i → s.replies i = []
  most : ∀ i, (s.replies i).length ≤ 1

/-- What is known in addition if the room answers. -/
structure Answered (payload : Fin n → Payload) (s : RoomActor n) : Prop where
  emptied : s.proc.run.over = true → s.proc.mb = []
  reply : ∀ i, (payload i).isJoin = true → s.proc.Settled i → (s.replies i).length = 1

theorem Replied.of_step (h : s.Replied) {p : Process n} {a : ProcessAct n} (hp : p.Queued)
    (hsame : ∀ i, p.Settled i ↔ s.proc.Settled i) (ha : ∀ panicked, a ≠ .handleEnd panicked)
    (hstep : p.step pol a = some s'.proc) (hrep : s'.replies = s.replies) : s'.Replied where
  queued := hp.step hstep
  none_before := by
    intro i hi
    rw [hrep]
    refine h.none_before i fun hs => hi ?_
    exact (Process.settled_of_step hp ha hstep i).mpr ((hsame i).mpr hs)
  most := by
    rw [hrep]
    exact h.most

theorem Answered.of_step (h : s.Answered payload) {p : Process n} {a : ProcessAct n}
    (hp : p.Queued) (hover : p.run.over = true → p.mb = [])
    (hsame : ∀ i, p.Settled i ↔ s.proc.Settled i) (ha : ∀ panicked, a ≠ .handleEnd panicked)
    (hempty : p.Emptied pol a) (hstep : p.step pol a = some s'.proc)
    (hrep : s'.replies = s.replies) : s'.Answered payload where
  emptied := Process.emptied_of_step hover hempty hstep
  reply := by
    intro i hi hs
    rw [hrep]
    exact h.reply i hi ((hsame i).mp ((Process.settled_of_step hp ha hstep i).mp hs))

theorem handleStep_eq (h : s.handleStep pol payload i cb cb' = some s') :
    (settle s.proc (s.room.handle cb cb' (payload i)).1.1).step pol
        (.handleEnd (s.room.handle cb cb' (payload i)).1.2) = some s'.proc ∧
      s'.replies = update s.replies i
        (s.replies i ++ (s.room.handle cb cb' (payload i)).2.toList) := by
  obtain ⟨p, hp, rfl⟩ := Option.map_eq_some_iff.mp h
  exact ⟨hp, rfl⟩

theorem Replied.handle (h : s.Replied) (hi : s.proc.run.current = some i)
    (hstep : s.handleStep pol payload i cb cb' = some s') : s'.Replied := by
  obtain ⟨hproc, hrep⟩ := handleStep_eq hstep
  have hq := queued_settle (s.room.handle cb cb' (payload i)).1.1 h.queued
  have hnone : s.replies i = [] := h.none_before i fun hs => hs.2 hi
  refine ⟨hq.step hproc, ?_, ?_⟩
  · intro j hj
    rw [Process.settled_handleEnd hq (by rw [settle_run]; exact hi) hproc, settled_settle] at hj
    rw [hrep, update_of_ne fun heq => hj (.inl heq)]
    exact h.none_before j fun hs => hj (.inr hs)
  · rw [hrep]
    refine (forall_update_iff s.replies fun _ l => l.length ≤ 1).mpr ⟨?_, fun j _ => h.most j⟩
    rw [hnone, List.nil_append]
    exact reply_length_le

theorem Answered.handle (h : s.Answered payload) (hrepl : s.Replied)
    (hi : s.proc.run.current = some i) (hans : s.Answering pol payload (.handle cb cb'))
    (hstep : s.handleStep pol payload i cb cb' = some s') : s'.Answered payload := by
  obtain ⟨hproc, hrep⟩ := handleStep_eq hstep
  obtain ⟨hempty, hcalm⟩ := hans i hi
  have hq := queued_settle (s.room.handle cb cb' (payload i)).1.1 hrepl.queued
  have hnone : s.replies i = [] := hrepl.none_before i fun hs => hs.2 hi
  refine ⟨Process.emptied_of_step (by simpa using h.emptied) hempty hproc, ?_⟩
  intro j hj hs
  rw [hrep]
  by_cases hji : j = i
  · subst hji
    rw [update_self, hnone, List.nil_append]
    have hcalm' := hcalm hj
    rcases hp : payload j with uid | _ | _ | _ | _ <;> rw [hp] at hj hcalm' <;> cases hj
    obtain ⟨e, he⟩ := Option.isSome_iff_exists.mp (handleJoin_isSome hcalm')
    rw [State.handle, he]
    rfl
  · rw [update_of_ne hji]
    refine h.reply j hj ?_
    rw [Process.settled_handleEnd hq (by rw [settle_run]; exact hi) hproc, settled_settle] at hs
    exact hs.resolve_left hji

theorem cases_of_step (hstep : s.step pol payload a = some s') :
    (∃ p b, (p = s.proc ∨ ∃ r, p = settle s.proc r) ∧ (∀ panicked, b ≠ .handleEnd panicked) ∧
      (s.Answering pol payload a → p.Emptied pol b) ∧ p.step pol b = some s'.proc ∧
      s'.replies = s.replies) ∨
    ∃ i cb cb', a = .handle cb cb' ∧ s.proc.run.current = some i ∧
      s.handleStep pol payload i cb cb' = some s' := by
  rcases a with a | onCreate | ⟨cb, cb'⟩
  · left
    obtain ⟨hnot, hstep⟩ := Option.ite_none_left_eq_some.mp hstep
    obtain ⟨p, hp, rfl⟩ := Option.map_eq_some_iff.mp hstep
    refine ⟨s.proc, a, .inl rfl, ?_, fun h => h, hp, rfl⟩
    rintro panicked rfl
    exact hnot rfl
  · left
    obtain ⟨p, hp, rfl⟩ := Option.map_eq_some_iff.mp hstep
    exact ⟨_, .initEnd (onCreate.exec s.room).2, .inr ⟨_, rfl⟩, by simp, fun h => h, hp, rfl⟩
  · right
    simp only [step] at hstep
    split at hstep
    next i hi => exact ⟨i, cb, cb', rfl, hi, hstep⟩
    · cases hstep

theorem Replied.step (h : s.Replied) (hstep : s.step pol payload a = some s') : s'.Replied := by
  rcases cases_of_step hstep with ⟨p, b, hp, hb, -, hproc, hrep⟩ | ⟨i, cb, cb', rfl, hi, hhandle⟩
  · rcases hp with rfl | ⟨r, rfl⟩
    · exact h.of_step h.queued (fun _ => .rfl) hb hproc hrep
    · exact h.of_step (queued_settle r h.queued) (settled_settle r) hb hproc hrep
  · exact h.handle hi hhandle

theorem Answered.step (h : s.Answered payload) (hrepl : s.Replied)
    (hans : s.Answering pol payload a) (hstep : s.step pol payload a = some s') :
    s'.Answered payload := by
  rcases cases_of_step hstep with
    ⟨p, b, hp, hb, hempty, hproc, hrep⟩ | ⟨i, cb, cb', rfl, hi, hhandle⟩
  · rcases hp with rfl | ⟨r, rfl⟩
    · exact h.of_step hrepl.queued h.emptied (fun _ => .rfl) hb (hempty hans) hproc hrep
    · exact h.of_step (queued_settle r hrepl.queued) (by simpa using h.emptied) (settled_settle r)
        hb (hempty hans) hproc hrep
  · exact h.handle hrepl hi hans hhandle

variable {acts : List (RoomAct n)} {clock maxPlayers : ℤ}

theorem answered_of_run
    (hrun : run (step pol payload) (createRoom n clock maxPlayers) acts = some s)
    (hans : Along (step pol payload) (Answering pol payload)
      (createRoom n clock maxPlayers) acts) : s.Replied ∧ s.Answered payload := by
  refine invariant_of_run (I := fun s => s.Replied ∧ s.Answered payload) ?_ ⟨?_, ?_⟩ hans hrun
  · rintro s a s' ⟨hr, ha⟩ hcond hstep
    exact ⟨hr.step hstep, ha.step hr hcond hstep⟩
  · exact ⟨Process.queued_spawn clock, fun _ _ => rfl, fun _ => Nat.zero_le 1⟩
  · refine ⟨fun _ => rfl, ?_⟩
    rintro i - ⟨hi, -⟩
    cases hi

/-- **A request to join gets exactly one reply**, if the actor leaves nothing in its mailbox when it
ends and no handler of a join panics: at most one at any time, and one as soon as the room has moved
on. -/
theorem join_replied_once
    (hrun : run (step pol payload) (createRoom n clock maxPlayers) acts = some s)
    (hans : Along (step pol payload) (Answering pol payload)
      (createRoom n clock maxPlayers) acts) {i : Fin n} (hjoin : (payload i).isJoin = true)
    (htold : s.proc.tells i = .returned none) :
    (s.replies i).length ≤ 1 ∧
      (s.proc.Settled i ∨ s.proc.finished = true → (s.replies i).length = 1) := by
  obtain ⟨hr, ha⟩ := answered_of_run hrun hans
  refine ⟨hr.most i, ?_⟩
  rintro (hs | hfin)
  · exact ha.reply i hjoin hs
  · have hover := hr.queued.finished hfin
    have hmem : i ∈ s.proc.handled := by
      have hentered := (hr.queued.told i).mpr htold
      rwa [hr.queued.entered, ha.emptied hover, List.append_nil] at hentered
    refine ha.reply i hjoin ⟨hmem, ?_⟩
    intro hcur
    rcases hg : s.proc.run <;> rw [hg] at hover hcur <;> cases hcur
    cases hover

/-- The mailbox of a room without a policy of its own. -/
def samplePolicy : Policy := normalizePolicy ⟨4096, some .fullDrop, 0⟩

/-- Alice and Bob ask to join. -/
def twoJoins (i : Fin 2) : Payload := if i = 0 then .join "alice" else .join "bob"

/-- The room is closed when Alice has joined, and its mailbox is worked through. -/
def closedOnJoinActs : List (RoomAct 2) :=
  [.act (.lookup 0), .act (.send 0), .act (.lookup 1), .act (.send 1), .init .done, .act .receive,
    .handle (.close .done .done) .done, .act .receive, .handle .done .done, .act .drainEnd,
    .act .finish]

theorem join_replied_once_closedOnJoin : ∃ s,
    run (step samplePolicy twoJoins) (createRoom 2 0 2) closedOnJoinActs = some s ∧
      (s.replies 0).length = 1 ∧ s.proc.finished = true ∧ (s.replies 1).length = 1 := by
  obtain ⟨s, hrun, h0, h1, hset, hfin⟩ : ∃ s,
      run (step samplePolicy twoJoins) (createRoom 2 0 2) closedOnJoinActs = some s ∧
        s.proc.tells 0 = .returned none ∧ s.proc.tells 1 = .returned none ∧ s.proc.Settled 0 ∧
        s.proc.finished = true := ⟨_, rfl, rfl, rfl, by decide, rfl⟩
  have hans : Along (step samplePolicy twoJoins) (Answering samplePolicy twoJoins)
      (createRoom 2 0 2) closedOnJoinActs := by decide
  exact ⟨s, hrun, (join_replied_once hrun hans rfl h0).2 (.inl hset), hfin,
    (join_replied_once hrun hans rfl h1).2 (.inr hfin)⟩

/-- The game logic panics when Alice joins. -/
def panicOnJoinActs : List (RoomAct 2) :=
  [.act (.lookup 0), .act (.send 0), .init .done, .act .receive, .handle .panic .done,
    .act .batchEnd]

/-- The request has been handled and the room waits, but there was no reply. -/
theorem join_never_replied : ∃ s,
    run (step samplePolicy twoJoins) (createRoom 2 0 2) panicOnJoinActs = some s ∧
      s.proc.tells 0 = .returned none ∧ s.proc.Settled 0 ∧ s.replies 0 = [] ∧
      s.proc.run = .receiving .select ∧ s.proc.mb = [] :=
  ⟨_, rfl, rfl, by decide, rfl, rfl, rfl⟩

end RoomActor

end RanGame.Room
