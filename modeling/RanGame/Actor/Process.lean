import Mathlib.Algebra.Group.Int.Defs
import RanGame.Lib.Machine

/-!
# One actor of the engine

`internal/actor/engine.go`, `mailbox.go` and `supervisor.go` for one process: its mailbox, the
goroutine that works through it, concurrent `Tell` calls and all the ways to stop it. `beginDrain`
closes the stop signal and sets `stopping` afterwards, which are two actions unless the goroutine
itself calls it. An envelope is named by its `Tell` call.
-/

namespace RanGame.Actor

open Option

/-- What `Tell` does when the mailbox is full. -/
inductive OnFull
  | fullDrop
  | fullKick
  | fullBlock
  deriving DecidableEq

/-- `framework.MailboxPolicy`; a name that is none of the three is `none`. -/
structure MailboxPolicy where
  capacity : ℤ
  onFull : Option OnFull
  drainBatch : ℤ

structure Policy where
  capacity : ℕ
  capacity_pos : 0 < capacity
  onFull : OnFull
  drainBatch : ℕ
  drainBatch_pos : 0 < drainBatch

def normalizePolicy (p : MailboxPolicy) : Policy where
  capacity := if p.capacity ≤ 0 then 1024 else p.capacity.toNat
  capacity_pos := by split <;> omega
  onFull := p.onFull.getD .fullKick
  drainBatch := if p.drainBatch ≤ 0 then 64 else p.drainBatch.toNat
  drainBatch_pos := by split <;> omega

/-- The panics within the last sixty seconds, with the one that happens now. -/
def notePanic (panics : List ℤ) (now : ℤ) : List ℤ :=
  panics.filter (fun t => now - 60 * 10 ^ 9 < t) ++ [now]

/-- How many panics within the window stop the actor. -/
def maxPanicInWindow : ℕ := 3

inductive TellErr
  | errActorNotFound
  | errDropped
  | errKicked
  | errShuttingDown
  deriving DecidableEq

inductive Tell
  | notCalled
  | found
  /-- The mailbox is full and the policy is to wait. -/
  | blocked
  /-- The stop signal is closed, and `stopping` is about to be set. -/
  | kicking
  | returned (err : Option TellErr)
  deriving DecidableEq

/-- Which receive the goroutine goes on with after an envelope. -/
inductive Receive
  | select
  /-- That of `drainBatch`, with so many left to take. -/
  | batch (left : ℕ)
  /-- That of `drainRemaining`. -/
  | drain
  deriving DecidableEq

inductive Goroutine (n : ℕ)
  | init
  | receiving (recv : Receive)
  /-- In `handleOne` for an envelope that it took at `recv`. -/
  | handling (i : Fin n) (recv : Receive)
  | returned
  | stopped
  | deleting
  | gone
  deriving DecidableEq

/-- A process with `n` calls of `Tell`. -/
structure Process (n : ℕ) where
  clock : ℤ
  /-- The mailbox, oldest first. -/
  mb : List (Fin n)
  run : Goroutine n
  stopSig : Bool
  stopping : Bool
  finished : Bool
  listed : Bool
  stopAll : Bool
  panics : List ℤ
  tells : Fin n → Tell
  /-- History: the envelopes in the order in which they entered the mailbox. -/
  entered : List (Fin n)
  /-- History: the envelopes in the order in which they were taken out and handled. -/
  handled : List (Fin n)

inductive ProcessAct (n : ℕ)
  | tick (d : ℕ)
  | lookup (i : Fin n)
  | send (i : Fin n)
  /-- The second half of the `beginDrain` of a `Tell`. -/
  | kick (i : Fin n)
  | unblock (i : Fin n)
  /-- A blocked `Tell` gives up because the engine is shutting down. -/
  | giveUp (i : Fin n)
  /-- The first half of the `beginDrain` of `Engine.Stop`. -/
  | stop
  /-- The second half. -/
  | setStopping
  | shutdown
  | ctxStop
  | initEnd (panicked : Bool)
  | receive
  | signal
  | handleEnd (panicked : Bool)
  /-- The batch is used up, or the mailbox is empty. -/
  | batchEnd
  | drainEnd
  | finish
  | onStopEnd (panicked : Bool)
  | delete
  deriving DecidableEq

def Goroutine.calling {n : ℕ} : Goroutine n → Bool
  | .init | .handling _ _ | .stopped => true
  | _ => false

def Goroutine.current {n : ℕ} : Goroutine n → Option (Fin n)
  | .handling i _ => some i
  | _ => none

namespace Process

variable {n : ℕ} (s : Process n)

@[simps] def setTell (i : Fin n) (t : Tell) : Process n :=
  { s with tells := Function.update s.tells i t }

@[simps] def goTo (g : Goroutine n) : Process n := { s with run := g }

/-- `beginDrain`, called by the goroutine itself. -/
@[simps] def beginDrain : Process n := { s with stopSig := true, stopping := true }

/-- The end of `safeCall`: a panic is noted, and one too many stops the actor. -/
def safeCallEnd (panicked : Bool) : Process n :=
  if panicked then
    if maxPanicInWindow ≤ (notePanic s.panics s.clock).length then
      { s with panics := notePanic s.panics s.clock }.beginDrain
    else { s with panics := notePanic s.panics s.clock }
  else s

/-- The envelope is in the mailbox and `Tell` returns `nil`. -/
@[simps] def enter (i : Fin n) : Process n :=
  { s with
    mb := s.mb ++ [i]
    entered := s.entered ++ [i]
    tells := Function.update s.tells i (.returned none) }

@[simps] def take (i : Fin n) (rest : List (Fin n)) (recv : Receive) : Process n :=
  { s with
    mb := rest
    handled := s.handled ++ [i]
    run := .handling i recv }

/-- `Tell` after the lookup: into the mailbox, or what the policy says. -/
def sendStep (pol : Policy) (i : Fin n) : Option (Process n) :=
  if s.tells i = .found then
    if s.mb.length < pol.capacity then some (s.enter i)
    else match pol.onFull with
      | .fullDrop => some (s.setTell i (.returned (some .errDropped)))
      | .fullKick => some { s.setTell i .kicking with stopSig := true }
      | .fullBlock => some (s.setTell i .blocked)
  else none

def receiveStep : Option (Process n) :=
  match s.run, s.mb with
  | .receiving .select, i :: rest => some (s.take i rest .select)
  | .receiving (.batch (left + 1)), i :: rest => some (s.take i rest (.batch left))
  | .receiving .drain, i :: rest => some (s.take i rest .drain)
  | _, _ => none

/-- What `run` does after `handleOne`, and `drainBatch` and `drainRemaining` do. -/
def afterHandle (pol : Policy) : Receive → Goroutine n
  | .select => if s.stopping then .receiving .drain else .receiving (.batch pol.drainBatch)
  | .batch left => if s.stopping then .returned else .receiving (.batch left)
  | .drain => .receiving .drain

def step (pol : Policy) (s : Process n) : ProcessAct n → Option (Process n)
  | .tick d => some { s with clock := s.clock + d }
  | .lookup i =>
    if s.tells i = .notCalled then
      some (s.setTell i
        (if s.listed ∧ ¬ s.finished then .found else .returned (some .errActorNotFound)))
    else none
  | .send i => s.sendStep pol i
  | .kick i =>
    if s.tells i = .kicking then
      some { s.setTell i (.returned (some .errKicked)) with stopping := true }
    else none
  | .unblock i =>
    if s.tells i = .blocked ∧ s.mb.length < pol.capacity then some (s.enter i) else none
  | .giveUp i =>
    if s.tells i = .blocked ∧ s.stopAll then
      some (s.setTell i (.returned (some .errShuttingDown)))
    else none
  | .stop => if s.listed then some { s with stopSig := true } else none
  | .setStopping => if s.stopSig then some { s with stopping := true } else none
  | .shutdown => some { s with stopAll := true }
  | .ctxStop => if s.run.calling then some s.beginDrain else none
  | .initEnd panicked =>
    if s.run = .init then
      some ((s.safeCallEnd panicked).goTo
        (if (s.safeCallEnd panicked).stopping then .returned else .receiving .select))
    else none
  | .receive => s.receiveStep
  | .signal =>
    if s.run = .receiving .select ∧ s.stopSig then some (s.goTo (.receiving .drain)) else none
  | .handleEnd panicked =>
    match s.run with
    | .handling _ recv =>
      some ((s.safeCallEnd panicked).goTo ((s.safeCallEnd panicked).afterHandle pol recv))
    | _ => none
  | .batchEnd =>
    match s.run with
    | .receiving (.batch left) =>
      if left = 0 ∨ s.mb = [] then
        some (s.goTo (if s.stopping then .returned else .receiving .select))
      else none
    | _ => none
  | .drainEnd =>
    if s.run = .receiving .drain ∧ s.mb = [] then some (s.goTo .returned) else none
  | .finish =>
    if s.run = .returned then some { s.beginDrain.goTo .stopped with finished := true } else none
  | .onStopEnd panicked =>
    if s.run = .stopped then some ((s.safeCallEnd panicked).goTo .deleting) else none
  | .delete => if s.run = .deleting then some { s.goTo .gone with listed := false } else none

end Process

/-- `Spawn`: the process is in the table and its goroutine begins with `Init`. -/
def spawn (n : ℕ) (clock : ℤ) : Process n where
  clock := clock
  mb := []
  run := .init
  stopSig := false
  stopping := false
  finished := false
  listed := true
  stopAll := false
  panics := []
  tells := fun _ => .notCalled
  entered := []
  handled := []

namespace Process

variable {n : ℕ} {pol : Policy}

inductive Happens (pol : Policy) (s : Process n) : ProcessAct n → Process n → Prop
  | tick {d} : Happens pol s (.tick d) { s with clock := s.clock + d }
  | found {i} (hi : s.tells i = .notCalled) (hlisted : s.listed = true)
    (hfin : s.finished = false) : Happens pol s (.lookup i) (s.setTell i .found)
  | notFound {i} (hi : s.tells i = .notCalled) :
    Happens pol s (.lookup i) (s.setTell i (.returned (some .errActorNotFound)))
  | enter {i} (hi : s.tells i = .found) (hroom : s.mb.length < pol.capacity) :
    Happens pol s (.send i) (s.enter i)
  | drop {i} (hi : s.tells i = .found) :
    Happens pol s (.send i) (s.setTell i (.returned (some .errDropped)))
  | overflow {i} (hi : s.tells i = .found) :
    Happens pol s (.send i) { s.setTell i .kicking with stopSig := true }
  | block {i} (hi : s.tells i = .found) : Happens pol s (.send i) (s.setTell i .blocked)
  | kick {i} (hi : s.tells i = .kicking) :
    Happens pol s (.kick i) { s.setTell i (.returned (some .errKicked)) with stopping := true }
  | unblock {i} (hi : s.tells i = .blocked) (hroom : s.mb.length < pol.capacity) :
    Happens pol s (.unblock i) (s.enter i)
  | giveUp {i} (hi : s.tells i = .blocked) :
    Happens pol s (.giveUp i) (s.setTell i (.returned (some .errShuttingDown)))
  | stop (hlisted : s.listed = true) : Happens pol s .stop { s with stopSig := true }
  | setStopping (hsig : s.stopSig = true) : Happens pol s .setStopping { s with stopping := true }
  | shutdown : Happens pol s .shutdown { s with stopAll := true }
  | ctxStop (hrun : s.run.calling = true) : Happens pol s .ctxStop s.beginDrain
  | initEnd {panicked} (hrun : s.run = .init) :
    Happens pol s (.initEnd panicked) ((s.safeCallEnd panicked).goTo
      (if (s.safeCallEnd panicked).stopping then .returned else .receiving .select))
  /-- An envelope is taken out at `recv`; the goroutine goes on at `next`. -/
  | receive {i rest recv next} (hrun : s.run = .receiving recv) (hmb : s.mb = i :: rest) :
    Happens pol s .receive (s.take i rest next)
  | signal (hrun : s.run = .receiving .select) (hsig : s.stopSig = true) :
    Happens pol s .signal (s.goTo (.receiving .drain))
  | handleEnd {i recv panicked} (hrun : s.run = .handling i recv) :
    Happens pol s (.handleEnd panicked)
      ((s.safeCallEnd panicked).goTo ((s.safeCallEnd panicked).afterHandle pol recv))
  | batchEnd {left} (hrun : s.run = .receiving (.batch left)) (hend : left = 0 ∨ s.mb = []) :
    Happens pol s .batchEnd (s.goTo (if s.stopping then .returned else .receiving .select))
  | drainEnd (hrun : s.run = .receiving .drain) (hmb : s.mb = []) :
    Happens pol s .drainEnd (s.goTo .returned)
  | finish (hrun : s.run = .returned) :
    Happens pol s .finish { s.beginDrain.goTo .stopped with finished := true }
  | onStopEnd {panicked} (hrun : s.run = .stopped) :
    Happens pol s (.onStopEnd panicked) ((s.safeCallEnd panicked).goTo .deleting)
  | delete (hrun : s.run = .deleting) : Happens pol s .delete { s.goTo .gone with listed := false }

variable {s s' : Process n}

theorem happens_of_sendStep {i : Fin n} (h : s.sendStep pol i = some s') :
    Happens pol s (.send i) s' := by
  unfold sendStep at h
  obtain ⟨hi, h⟩ := ite_none_right_eq_some.mp h
  split at h
  next hroom =>
    cases h
    exact .enter hi hroom
  · split at h <;> cases h
    · exact .drop hi
    · exact .overflow hi
    · exact .block hi

theorem happens_of_receiveStep (h : s.receiveStep = some s') : Happens pol s .receive s' := by
  unfold receiveStep at h
  split at h
  case h_4 => cases h
  all_goals
    rename_i hrun hmb
    cases h
    exact .receive hrun hmb

/-- **A step is one of the branches.** -/
theorem happens_of_step {a : ProcessAct n} (h : s.step pol a = some s') : Happens pol s a s' := by
  rcases a
  case tick =>
    cases h
    exact .tick
  case shutdown =>
    cases h
    exact .shutdown
  case lookup i =>
    obtain ⟨hi, ⟨⟩⟩ := ite_none_right_eq_some.mp h
    by_cases hl : s.listed = true ∧ ¬ s.finished = true
    · rw [if_pos hl]
      exact .found hi hl.1 (by simpa using hl.2)
    · rw [if_neg hl]
      exact .notFound hi
  case send i => exact happens_of_sendStep h
  case receive => exact happens_of_receiveStep h
  case unblock i =>
    obtain ⟨hi, ⟨⟩⟩ := ite_none_right_eq_some.mp h
    exact .unblock hi.1 hi.2
  case giveUp i =>
    obtain ⟨hi, ⟨⟩⟩ := ite_none_right_eq_some.mp h
    exact .giveUp hi.1
  case signal =>
    obtain ⟨hs, ⟨⟩⟩ := ite_none_right_eq_some.mp h
    exact .signal hs.1 hs.2
  case drainEnd =>
    obtain ⟨hd, ⟨⟩⟩ := ite_none_right_eq_some.mp h
    exact .drainEnd hd.1 hd.2
  case batchEnd =>
    simp only [step] at h
    split at h
    next hrun =>
      obtain ⟨hend, ⟨⟩⟩ := ite_none_right_eq_some.mp h
      exact .batchEnd hrun hend
    · cases h
  -- the remaining actions have one branch each
  all_goals
    simp only [step] at h
    split at h <;> cases h
    next hs =>
      first
      | exact .kick hs | exact .stop hs | exact .setStopping hs | exact .ctxStop hs
      | exact .initEnd hs | exact .handleEnd hs | exact .finish hs | exact .onStopEnd hs
      | exact .delete hs

end Process

end RanGame.Actor
