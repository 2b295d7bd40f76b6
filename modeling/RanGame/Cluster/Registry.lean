import RanGame.Lib.Machine

/-!
# The registry of nodes in memory

`MemRegistry` keeps its entries under a read-write mutex, which most methods unlock by hand. Asked
about a node that is not registered, `SetState` returns with the mutex locked, and every later call
waits for ever.
-/

namespace RanGame.Cluster

open Machine Option

inductive NodeState
  | active
  | draining
  | drained
  | down
  deriving DecidableEq, Repr

/-- `NodeInfo`. A time may be the zero time. -/
structure NodeInfo where
  id : String
  role : String
  addr : String
  modules : List String
  state : NodeState
  activeRooms : ℤ
  startedAt : Option ℕ
  lastBeat : Option ℕ
  deriving DecidableEq, Repr

/-- `ChangeEvent`. There is no old state of a node that has not been registered. -/
structure ChangeEvent where
  nodeID : String
  old : Option NodeState
  new : NodeState
  deriving DecidableEq, Repr

inductive RegistryError
  | registryClosed
  | notRegistered (id : String)
  | notFound (id : String)
  deriving DecidableEq, Repr

inductive Answer
  | done
  | failed (err : RegistryError)
  | nodes (infos : List NodeInfo)
  | node (info : NodeInfo)
  /-- The number of a new channel. -/
  | watching (ch : ℕ)
  deriving DecidableEq, Repr

inductive RegistryCall
  | register (info : NodeInfo)
  | heartbeat (id : String) (activeRooms : ℤ)
  | setState (id : String) (state : NodeState)
  /-- All roles are asked for by `""`. -/
  | list (role : String) (onlyActive : Bool)
  | get (id : String)
  | watch
  | deregister (id : String)
  | close

def RegistryCall.target : RegistryCall → Option String
  | .setState id _ => some id
  | _ => none

/-- `MemRegistry`: who holds `mu`, the entries, and what is in the channels. -/
structure MemRegistry where
  locked : Bool
  readers : ℕ
  nodes : List NodeInfo
  chans : List (List ChangeEvent)
  closed : Bool

def newMemRegistry : MemRegistry := ⟨false, 0, [], [], false⟩

namespace MemRegistry

def lock (s : MemRegistry) : Option MemRegistry :=
  if s.locked ∨ s.readers ≠ 0 then none else some { s with locked := true }

def unlock (s : MemRegistry) : MemRegistry := { s with locked := false }

def rLock (s : MemRegistry) : Option MemRegistry :=
  if s.locked then none else some { s with readers := s.readers + 1 }

def rUnlock (s : MemRegistry) : MemRegistry := { s with readers := s.readers - 1 }

/-- `r.nodes[id]` -/
def find (s : MemRegistry) (id : String) : Option NodeInfo := s.nodes.find? (·.id = id)

/-- `r.nodes[info.ID] = info` -/
def store (s : MemRegistry) (info : NodeInfo) : MemRegistry :=
  { s with nodes := info :: s.nodes.filter (·.id ≠ info.id) }

/-- `publish`. A channel holds 64 events; what does not fit is dropped. -/
def publish (s : MemRegistry) (ev : ChangeEvent) : Option MemRegistry := do
  let s := (← s.rLock).rUnlock
  return { s with chans := s.chans.map fun ch => if ch.length < 64 then ch ++ [ev] else ch }

def register (s : MemRegistry) (now : ℕ) (info : NodeInfo) : Option (MemRegistry × Answer) := do
  let s ← s.lock
  if s.closed then
    return (s.unlock, .failed .registryClosed)
  let info := { info with
    lastBeat := info.lastBeat.or (some now), startedAt := info.startedAt.or (some now) }
  let old := (s.find info.id).map NodeInfo.state
  let s := (s.store info).unlock
  if old = some info.state then
    return (s, .done)
  return (← s.publish ⟨info.id, old, info.state⟩, .done)

def heartbeat (s : MemRegistry) (now : ℕ) (id : String) (activeRooms : ℤ) :
    Option (MemRegistry × Answer) := do
  let s ← s.lock
  if s.closed then
    return (s.unlock, .failed .registryClosed)
  match s.find id with
  | none => return (s.unlock, .failed (.notRegistered id))
  | some n => return ((s.store { n with lastBeat := some now, activeRooms }).unlock, .done)

def setState (s : MemRegistry) (now : ℕ) (id : String) (state : NodeState) :
    Option (MemRegistry × Answer) := do
  let s ← s.lock
  if s.closed then
    return (s.unlock, .failed .registryClosed)
  match s.find id with
  -- here the source does not unlock
  | none => return (s, .failed (.notRegistered id))
  | some n =>
    let s := (s.store { n with state, lastBeat := some now }).unlock
    if n.state = state then
      return (s, .done)
    return (← s.publish ⟨id, some n.state, state⟩, .done)

def list (s : MemRegistry) (role : String) (onlyActive : Bool) : Option (MemRegistry × Answer) := do
  let s ← s.rLock
  return (s.rUnlock, .nodes (s.nodes.filter fun n =>
    (role = "" || n.role = role) && (!onlyActive || n.state = .active)))

def get (s : MemRegistry) (id : String) : Option (MemRegistry × Answer) := do
  let s ← s.rLock
  match s.find id with
  | none => return (s.rUnlock, .failed (.notFound id))
  | some n => return (s.rUnlock, .node n)

def watch (s : MemRegistry) : Option (MemRegistry × Answer) := do
  let s ← s.lock
  return ({ s with chans := s.chans ++ [[]] }.unlock, .watching s.chans.length)

def deregister (s : MemRegistry) (id : String) : Option (MemRegistry × Answer) := do
  let s ← s.lock
  if s.closed then
    return (s.unlock, .failed .registryClosed)
  let old := s.find id
  let s := { s with nodes := s.nodes.filter (·.id ≠ id) }.unlock
  match old with
  | none => return (s, .done)
  | some n => return (← s.publish ⟨id, some n.state, .down⟩, .done)

def close (s : MemRegistry) : Option (MemRegistry × Answer) := do
  if s.closed then
    return (s, .done)
  let s ← s.lock
  return ({ s with closed := true, chans := [] }.unlock, .done)

/-- One call of a method, at a time. It is `none` if the call waits for ever. -/
def call (s : MemRegistry) (now : ℕ) : RegistryCall → Option (MemRegistry × Answer)
  | .register info => s.register now info
  | .heartbeat id activeRooms => s.heartbeat now id activeRooms
  | .setState id state => s.setState now id state
  | .list role onlyActive => s.list role onlyActive
  | .get id => s.get id
  | .watch => s.watch
  | .deregister id => s.deregister id
  | .close => s.close

/-- The registry after a call has returned. -/
def step (s : MemRegistry) (c : ℕ × RegistryCall) : Option MemRegistry :=
  (s.call c.1 c.2).map Prod.fst

def Unlocked (s : MemRegistry) : Prop := s.locked = false ∧ s.readers = 0

/-- `SetState` is about a registered node, or the registry is closed. -/
def Known (s : MemRegistry) (c : ℕ × RegistryCall) : Prop :=
  ∀ id ∈ c.2.target, s.closed = true ∨ (s.find id).isSome = true

instance (s : MemRegistry) (c : ℕ × RegistryCall) : Decidable (s.Known c) :=
  inferInstanceAs (Decidable (∀ id ∈ c.2.target, _))

variable {s : MemRegistry}

theorem Unlocked.publish (h : Unlocked s) (ev : ChangeEvent) :
    ∃ r : MemRegistry × Answer, ((s.publish ev).bind fun s => pure (s, .done)) = some r ∧
      Unlocked r.1 := by
  have hrLock : s.rLock = some { s with readers := 1 } := by
    simp [rLock, h.1, h.2]
  rw [MemRegistry.publish, hrLock]
  exact ⟨_, rfl, h.1, rfl⟩

/-- **A call returns with the mutex released.** -/
theorem Unlocked.call (h : Unlocked s) (now : ℕ) {c : RegistryCall} (hknown : s.Known (now, c)) :
    ∃ r, s.call now c = some r ∧ Unlocked r.1 := by
  have hlock : s.lock = some { s with locked := true } := by
    simp [lock, h.1, h.2]
  have hrLock : s.rLock = some { s with readers := 1 } := by
    simp [rLock, h.1, h.2]
  -- what a method does between locking and unlocking leaves the readers alone
  have hunlock : ∀ {t : MemRegistry}, t.readers = s.readers → Unlocked t.unlock :=
    fun ht => ⟨rfl, ht.trans h.2⟩
  cases c with
  | register info | deregister id =>
    simp only [MemRegistry.call, register, deregister, hlock, bind_eq_bind, bind_some]
    split
    · exact ⟨_, rfl, hunlock rfl⟩
    · split
      · exact ⟨_, rfl, hunlock rfl⟩
      · exact Unlocked.publish (hunlock (by rfl)) _
  | heartbeat id activeRooms =>
    simp only [MemRegistry.call, heartbeat, hlock, bind_eq_bind, bind_some]
    split
    · exact ⟨_, rfl, hunlock rfl⟩
    · split <;> exact ⟨_, rfl, hunlock rfl⟩
  | setState id state =>
    simp only [MemRegistry.call, setState, hlock, bind_eq_bind, bind_some]
    split
    · exact ⟨_, rfl, hunlock rfl⟩
    next hopen =>
      split
      next hnone =>
        have hfound := (hknown id rfl).resolve_left hopen
        rw [show s.find id = none from hnone] at hfound
        cases hfound
      · split
        · exact ⟨_, rfl, hunlock rfl⟩
        · exact Unlocked.publish (hunlock (by rfl)) _
  | list role onlyActive =>
    simp only [MemRegistry.call, list, hrLock, bind_eq_bind, bind_some]
    exact ⟨_, rfl, h.1, rfl⟩
  | get id =>
    simp only [MemRegistry.call, get, hrLock, bind_eq_bind, bind_some]
    split <;> exact ⟨_, rfl, h.1, rfl⟩
  | watch =>
    simp only [MemRegistry.call, watch, hlock, bind_eq_bind, bind_some]
    exact ⟨_, rfl, hunlock rfl⟩
  | close =>
    simp only [MemRegistry.call, close, hlock, bind_eq_bind, bind_some]
    split
    · exact ⟨_, rfl, h⟩
    · exact ⟨_, rfl, hunlock rfl⟩

/-- **Every call returns with the mutex released**, if `SetState` is about registered nodes. -/
theorem calls_return_unlocked (calls : List (ℕ × RegistryCall))
    (hknown : Along step Known newMemRegistry calls) :
    ∃ s, run step newMemRegistry calls = some s ∧ Unlocked s := by
  have hfree : Unlocked newMemRegistry := ⟨rfl, rfl⟩
  revert hfree hknown
  generalize newMemRegistry = s
  induction calls generalizing s with
  | nil => exact fun _ h => ⟨s, rfl, h⟩
  | cons c calls ih =>
    intro hk h
    obtain ⟨r, hcall, hr⟩ := h.call c.1 hk.1
    have hstep : s.step c = some r.1 := by rw [step, hcall]; rfl
    obtain ⟨s', hrun, hs'⟩ := ih r.1 (hk.2 r.1 hstep) hr
    exact ⟨s', run_cons_eq_some.mpr ⟨r.1, hstep, hrun⟩, hs'⟩

theorem calls_return_unlocked_node :
    ∃ s, run step newMemRegistry [(1, .register ⟨"a", "logic", ":1", [], .active, 0, none,
        none⟩), (2, .watch), (3, .setState "a" .draining), (4, .heartbeat "b" 0),
        (5, .deregister "a")] = some s ∧ Unlocked s :=
  calls_return_unlocked _ (by decide)

/-- `SetState` fails for a node that is not registered; no later call returns. -/
theorem setState_unknown_locks :
    ∃ s, newMemRegistry.setState 0 "a" .draining = some (s, .failed (.notRegistered "a")) ∧
      ¬Unlocked s ∧ ∀ c, s.step c = none := by
  refine ⟨_, rfl, nofun, ?_⟩
  rintro ⟨now, c⟩
  cases c <;> rfl

end MemRegistry

end RanGame.Cluster
