import RanGame.Actor.Life
import RanGame.Session.Registry

/-!
# Sessions, players and routes

`internal/app/server.go` with the login of `connector.go` and `logic_handler.go`: what a server
keeps for a user besides the session. `onSessionStart` leaves an entry in `players` as it is, and
otherwise spawns an actor; `onSessionRelease` takes the entry out and stops that actor. Neither
looks whether the actor is still alive.
-/

namespace RanGame.App

open Actor Function Machine Option Session

/-- What a server is run as. A Logic node has an ID. -/
inductive Role
  | standalone
  | logic (nodeID : String)
  deriving DecidableEq

/-- The two maps of the actor registry that are about users. -/
structure PlayerRegistry where
  byUID : PartialMap String ℕ
  idToUID : PartialMap ℕ String

namespace PlayerRegistry

variable (r : PlayerRegistry)

@[simps] def bindUID (uid : String) (id : ℕ) : PlayerRegistry where
  byUID := (match r.idToUID id with
    | some old => r.byUID.erase old
    | none => r.byUID).insert uid id
  idToUID :=
    ((match (match r.idToUID id with
        | some old => r.byUID.erase old
        | none => r.byUID) uid with
      | some oldID => r.idToUID.erase oldID
      | none => r.idToUID)).insert id uid

def unbind (id : ℕ) : PlayerRegistry :=
  match r.idToUID id with
  | some uid => ⟨r.byUID.erase uid, r.idToUID.erase id⟩
  | none => r

end PlayerRegistry

/-- Where the handler of a login or a reconnect is after the session manager. -/
inductive Handler
  | begun
  | routed
  | completed
  deriving DecidableEq

/-- Where the release callback of a call is. -/
inductive Release
  | begun
  | unrouted
  /-- The entry has been taken out of `players`. -/
  | taken (id : Option ℕ)
  | returned
  deriving DecidableEq

structure Server (n : ℕ) (C : Type*) where
  sessions : Manager n C
  nextID : ℕ
  actors : ℕ → Life
  players : PartialMap String ℕ
  registry : PlayerRegistry
  routes : PartialMap String String
  handlers : Fin n → Handler
  releases : Fin n → Release
  /-- History: the sessions that have been marked released. -/
  released : Fin n → Bool

inductive ServerAct (n : ℕ) (C : Type*)
  | act (a : ManagerAct n C)
  | bindRoute (i : Fin n)
  /-- `onSessionStart`. -/
  | start (i : Fin n)
  | unbindRoute (i : Fin n)
  /-- The section of `onSessionRelease`. -/
  | takePlayer (i : Fin n)
  | stopActor (i : Fin n)
  | notify (i : Fin n)
  /-- An actor stops on its own, after an overflow or too many panics. -/
  | die (id : ℕ)
  /-- A stopping actor is deleted from the engine's table and from the registry. -/
  | finish (id : ℕ)
  deriving DecidableEq

def serves {n : ℕ} {C : Type*} (i : Fin n) : Call n C → Option (Fin n)
  | .created => some i
  | .reconnected r _ => some r.sess
  | _ => none

def notifies {n : ℕ} {C : Type*} : Call n C → Option (Fin n)
  | .notifying x _ => some x
  | _ => none

def marks {n : ℕ} {C : Type*} (s : Manager n C) : ManagerAct n C → Option (Fin n)
  | .release i => (s.calls i).victim
  | _ => none

namespace Server

variable {n : ℕ} {C : Type*} (s : Server n C)

def uid (x : Fin n) : String := (s.sessions.sess x).uid

@[simps] def setHandler (i : Fin n) (h : Handler) : Server n C :=
  { s with handlers := update s.handlers i h }

@[simps] def setRelease (i : Fin n) (r : Release) : Server n C :=
  { s with releases := update s.releases i r }

@[simps] def setActor (id : ℕ) (l : Life) : Server n C :=
  { s with actors := update s.actors id l }

@[simps] def spawnPlayer (uid : String) : Server n C :=
  { s with
    nextID := s.nextID + 1
    actors := update s.actors (s.nextID + 1) .running
    registry := s.registry.bindUID uid (s.nextID + 1)
    players := s.players.insert uid (s.nextID + 1) }

def onSessionStart (uid : String) : Server n C :=
  match s.players uid with
  | some _ => s
  | none => s.spawnPlayer uid

/-- May the handler of call `i` start its session? On a Logic node only for a login whose route is
bound. -/
def Starts (role : Role) (i : Fin n) : Prop :=
  match role with
  | .standalone => s.handlers i = .begun
  | .logic _ => s.handlers i = .routed ∧ s.sessions.calls i = .created

/-- May the release callback of call `i` take the player out? On a Logic node the route comes
first. -/
def Releases (role : Role) (i : Fin n) : Prop :=
  match role with
  | .standalone => s.releases i = .begun
  | .logic _ => s.releases i = .unrouted

instance (role : Role) (i : Fin n) [DecidableEq C] : Decidable (s.Starts role i) := by
  unfold Starts
  split <;> infer_instance

instance (role : Role) (i : Fin n) : Decidable (s.Releases role i) := by
  unfold Releases
  split <;> infer_instance

variable [DecidableEq C] (role : Role) (ID : C → UInt64) (cfg : Config)

/-- A section of the session manager. -/
def actStep (a : ManagerAct n C) : Option (Server n C) :=
  match a with
  | .notify _ => none
  | a => (s.sessions.step ID cfg a).map fun sessions =>
    { s with
      sessions := sessions
      released := match marks s.sessions a with
        | some x => update s.released x true
        | none => s.released }

def step (s : Server n C) : ServerAct n C → Option (Server n C)
  | .act a => s.actStep ID cfg a
  | .bindRoute i =>
    match role, serves i (s.sessions.calls i) with
    | .logic nodeID, some x =>
      if s.handlers i = .begun then
        some { s.setHandler i .routed with routes := s.routes.insert (s.uid x) nodeID }
      else none
    | _, _ => none
  | .start i =>
    match serves i (s.sessions.calls i) with
    | some x =>
      if s.Starts role i then some ((s.onSessionStart (s.uid x)).setHandler i .completed) else none
    | none => none
  | .unbindRoute i =>
    match role, notifies (s.sessions.calls i) with
    | .logic nodeID, some x =>
      if s.releases i = .begun then
        some { s.setRelease i .unrouted with routes := s.routes.eraseIf (s.uid x) nodeID }
      else none
    | _, _ => none
  | .takePlayer i =>
    match notifies (s.sessions.calls i) with
    | some x =>
      if s.Releases role i then
        some { s.setRelease i (.taken (s.players (s.uid x))) with
          players := s.players.erase (s.uid x) }
      else none
    | none => none
  | .stopActor i =>
    match s.releases i with
    | .taken (some id) =>
      some ((if s.actors id = .running then s.setActor id .stopping else s).setRelease i .returned)
    | .taken none => some (s.setRelease i .returned)
    | _ => none
  | .notify i =>
    if s.releases i = .returned then
      (s.sessions.step ID cfg (.notify i)).map fun sessions =>
        { s.setRelease i .begun with sessions := sessions }
    else none
  | .die id => if s.actors id = .running then some (s.setActor id .stopping) else none
  | .finish id =>
    if s.actors id = .stopping then
      some { s.setActor id .finished with registry := s.registry.unbind id }
    else none

end Server

def newServer (n : ℕ) (C : Type*) (clock : ℤ) : Server n C where
  sessions := newManager n C clock
  nextID := 0
  actors := fun _ => .unborn
  players := fun _ => none
  registry := ⟨fun _ => none, fun _ => none⟩
  routes := fun _ => none
  handlers := fun _ => .begun
  releases := fun _ => .begun
  released := fun _ => false

namespace Server

variable {n : ℕ} {C : Type*} [DecidableEq C] {role : Role} {ID : C → UInt64} {cfg : Config}

inductive Happens (role : Role) (ID : C → UInt64) (cfg : Config) (s : Server n C) :
    ServerAct n C → Server n C → Prop
  | act {a m released} (hm : s.sessions.step ID cfg a = some m)
    (hrel : released = match marks s.sessions a with
      | some x => update s.released x true
      | none => s.released) :
    Happens role ID cfg s (.act a) { s with sessions := m, released := released }
  | bindRoute {i x nodeID} (hrole : role = .logic nodeID)
    (hx : serves i (s.sessions.calls i) = some x) (hi : s.handlers i = .begun) :
    Happens role ID cfg s (.bindRoute i)
      { s.setHandler i .routed with routes := s.routes.insert (s.uid x) nodeID }
  | restart {i x id} (hx : serves i (s.sessions.calls i) = some x)
    (hi : s.Starts role i) (hid : s.players (s.uid x) = some id) :
    Happens role ID cfg s (.start i) (s.setHandler i .completed)
  | start {i x} (hx : serves i (s.sessions.calls i) = some x) (hi : s.Starts role i)
    (hnone : s.players (s.uid x) = none) :
    Happens role ID cfg s (.start i) ((s.spawnPlayer (s.uid x)).setHandler i .completed)
  | unbindRoute {i x nodeID} (hrole : role = .logic nodeID)
    (hx : notifies (s.sessions.calls i) = some x) : Happens role ID cfg s (.unbindRoute i)
      { s.setRelease i .unrouted with routes := s.routes.eraseIf (s.uid x) nodeID }
  | takePlayer {i x} (hx : notifies (s.sessions.calls i) = some x) :
    Happens role ID cfg s (.takePlayer i)
      { s.setRelease i (.taken (s.players (s.uid x))) with
        players := s.players.erase (s.uid x) }
  | stopActor {i id} (hi : s.releases i = .taken (some id)) (hrun : s.actors id = .running) :
    Happens role ID cfg s (.stopActor i) ((s.setActor id .stopping).setRelease i .returned)
  /-- There is no actor, or none that runs. -/
  | stopNone {i} : Happens role ID cfg s (.stopActor i) (s.setRelease i .returned)
  | notify {i m} (hm : s.sessions.step ID cfg (.notify i) = some m) :
    Happens role ID cfg s (.notify i) { s.setRelease i .begun with sessions := m }
  | die {id} (hid : s.actors id = .running) :
    Happens role ID cfg s (.die id) (s.setActor id .stopping)
  | finish {id} (hid : s.actors id = .stopping) : Happens role ID cfg s (.finish id)
      { s.setActor id .finished with registry := s.registry.unbind id }

variable {s s' : Server n C}

theorem happens_of_actStep {a : ManagerAct n C} (h : s.actStep ID cfg a = some s') :
    Happens role ID cfg s (.act a) s' := by
  unfold actStep at h
  split at h
  · cases h
  · obtain ⟨m, hm, rfl⟩ := map_eq_some_iff.mp h
    exact .act hm rfl

/-- **A step is one of the branches.** -/
theorem happens_of_step {a : ServerAct n C} (h : s.step role ID cfg a = some s') :
    Happens role ID cfg s a s' := by
  rcases a
  case act => exact happens_of_actStep h
  case bindRoute =>
    simp only [step] at h
    split at h
    next hx =>
      obtain ⟨hi, ⟨⟩⟩ := ite_none_right_eq_some.mp h
      exact .bindRoute rfl hx hi
    · cases h
  case start =>
    simp only [step] at h
    split at h
    next x hx =>
      obtain ⟨hi, ⟨⟩⟩ := ite_none_right_eq_some.mp h
      rcases hp : s.players (s.uid x) with _ | id
      · simp only [onSessionStart, hp]
        exact .start hx hi hp
      · simp only [onSessionStart, hp]
        exact .restart hx hi hp
    · cases h
  case unbindRoute =>
    simp only [step] at h
    split at h
    next hx =>
      obtain ⟨-, ⟨⟩⟩ := ite_none_right_eq_some.mp h
      exact .unbindRoute rfl hx
    · cases h
  case takePlayer =>
    simp only [step] at h
    split at h
    next hx =>
      obtain ⟨-, ⟨⟩⟩ := ite_none_right_eq_some.mp h
      exact .takePlayer hx
    · cases h
  case stopActor =>
    simp only [step] at h
    split at h <;> cases h
    next id hi =>
      split
      next hrun => exact .stopActor hi hrun
      · exact .stopNone
    · exact .stopNone
  case notify =>
    obtain ⟨-, h⟩ := ite_none_right_eq_some.mp h
    obtain ⟨m, hm, rfl⟩ := map_eq_some_iff.mp h
    exact .notify hm
  case die =>
    obtain ⟨hid, ⟨⟩⟩ := ite_none_right_eq_some.mp h
    exact .die hid
  case finish =>
    obtain ⟨hid, ⟨⟩⟩ := ite_none_right_eq_some.mp h
    exact .finish hid

variable {k id : ℕ} {pol : Policy} {p : Process k} {bs : List (ProcessAct k)}

/-- The server knows the stage of life of a process after any step, or can find it out by one
action. -/
theorem follows_process {p' : Process k} {b : ProcessAct k} (hstages : p.Stages)
    (hp : p.life = s.actors id) (hstep : p.step pol b = some p') : p'.life = s.actors id ∨
      ∃ a s', s.step role ID cfg a = some s' ∧ s'.actors id = p'.life := by
  rcases Process.life_of_step hstages hstep with hsame | hnext
  · exact .inl (hsame.trans hp)
  · right
    rw [hp] at hnext
    generalize p'.life = l at hnext ⊢
    rcases hl : s.actors id <;> rw [hl] at hnext <;> cases hnext
    · exact ⟨.die id, s.setActor id .stopping, by simp [step, hl], by simp⟩
    · exact ⟨.finish id, { s.setActor id .finished with registry := s.registry.unbind id },
        by simp [step, hl], by simp⟩

theorem follows_run_from {p' : Process k} (hstages : p.Stages) (hp : p.life = s.actors id)
    (hrun : run (Process.step pol) p bs = some p') :
    ∃ acts s', run (step role ID cfg) s acts = some s' ∧ s'.actors id = p'.life := by
  induction bs generalizing p s with
  | nil =>
    obtain rfl : p = p' := by simpa using hrun
    exact ⟨[], s, rfl, hp.symm⟩
  | cons b bs ih =>
    obtain ⟨q, hq, hrest⟩ := run_cons_eq_some.mp hrun
    have hnext := hstages.step hq
    rcases follows_process hstages hp hq with hsame | ⟨a, t, ha, ht⟩
    · exact ih hnext hsame hrest
    · obtain ⟨acts, s', hacts, hs'⟩ := ih hnext ht.symm hrest
      exact ⟨a :: acts, s', run_cons_eq_some.mpr ⟨t, ha, hacts⟩, hs'⟩

/-- **The server follows its processes** from the moment they are spawned. -/
theorem follows_run {clock : ℤ} (hid : s.actors id = .running)
    (hrun : run (Process.step pol) (spawn k clock) bs = some p) :
    ∃ acts s', run (step role ID cfg) s acts = some s' ∧ s'.actors id = p.life :=
  follows_run_from (Process.stages_spawn clock) ((Process.life_spawn clock).trans hid.symm) hrun

end Server

end RanGame.App
