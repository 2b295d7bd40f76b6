import RanGame.Actor.Process
import RanGame.Storage.Profile

/-!
# Patches of a profile

`internal/app/profile_patch.go` and the player's actor of `server.go`, for one user. The actor loads
the profile in `Init` and saves its whole copy after each patch, at checkpoints and in `OnStop`. A
room tells its patch to the actor in `players`, or changes the stored profile itself. A logout takes
the entry out and stops the actor, while a login spawns the next one.
-/

namespace RanGame.App

open Actor Storage Option

inductive Message (V : Type)
  | patch (fields : Patch V)
  | checkpoint
  /-- An `Invoke` that does not touch the profile. -/
  | invoke

def Message.fields {V : Type} : Message V → Patch V
  | .patch fields => fields
  | _ => []

def Message.isPatch {V : Type} : Message V → Bool
  | .patch _ => true
  | _ => false

/-- An actor of the player, with the `n` messages that may be sent to it. -/
structure PlayerActor (n : ℕ) (V : Type) where
  proc : Process n
  profile : Option (PlayerProfile V)
  /-- The goroutine is in a callback whose effect is still to come. -/
  pending : Bool

def playerPolicy : Policy := normalizePolicy ⟨1024, some .fullKick, 64⟩

namespace PlayerActor

variable {n : ℕ} {V : Type}

/-- What `applyPatch` leaves of the actor's copy and of the stored profile. -/
def applyPatch (profile stored : Option (PlayerProfile V)) (fields : Patch V) :
    Option (PlayerProfile V) × Option (PlayerProfile V) :=
  match profile with
  -- without a copy it falls back to `profileStore.Patch`
  | none => (none, some (applyProfilePatch (load stored) fields))
  | some p => (some (applyProfilePatch p fields), some (applyProfilePatch p fields))

/-- `Save` and `SaveSync` of the copy, if there is one. -/
def save (profile stored : Option (PlayerProfile V)) : Option (PlayerProfile V) := profile.or stored

def begins : ProcessAct n → Bool
  | .receive | .finish => true
  | _ => false

def ends : ProcessAct n → Bool
  | .initEnd _ | .handleEnd _ | .onStopEnd _ => true
  | _ => false

/-- The actor after a step of its process. -/
@[simps] def follow (actor : PlayerActor n V) (a : ProcessAct n) (p : Process n) :
    PlayerActor n V where
  proc := p
  profile := actor.profile
  pending := begins a || actor.pending

end PlayerActor

inductive PatchCall (V : Type)
  | notCalled
  /-- `resolve` has found the actor; the call tells it and waits for the reply. -/
  | routed (id : ℕ)
  | loading
  /-- About to write back what it has loaded, when so many patches were acknowledged. -/
  | storing (p : PlayerProfile V) (seen : ℕ)
  | acknowledged

/-- The profile of one user, and all that reads and writes it. -/
structure Profiles (n : ℕ) (V : Type) where
  stored : Option (PlayerProfile V)
  nextID : ℕ
  player : Option ℕ
  actors : PartialMap ℕ (PlayerActor n V)
  calls : Fin n → PatchCall V
  /-- History: the patches in the order in which they were acknowledged. -/
  acks : List (Fin n)

inductive PatchAct (n : ℕ)
  | login (now : ℤ)
  /-- The section of `onSessionRelease`; the `stop` of the actor follows. -/
  | release
  | act (id : ℕ) (a : ProcessAct n)
  /-- What the callback that the actor is in does. -/
  | callback (id : ℕ)
  | resolve (i : Fin n)
  | fallBack (i : Fin n)
  | load (i : Fin n)
  | store (i : Fin n)
  deriving DecidableEq

namespace Profiles

variable {n : ℕ} {V : Type} (s : Profiles n V)

def value : PlayerProfile V := load s.stored

@[simps] def setActor (id : ℕ) (actor : PlayerActor n V) : Profiles n V :=
  { s with actors := s.actors.insert id actor }

@[simps] def setCall (i : Fin n) (c : PatchCall V) : Profiles n V :=
  { s with calls := Function.update s.calls i c }

@[simps] def spawnPlayer (now : ℤ) : Profiles n V :=
  { s with
    nextID := s.nextID + 1
    player := some (s.nextID + 1)
    actors := s.actors.insert (s.nextID + 1) ⟨spawn n now, none, true⟩ }

@[simps] def acknowledge (i : Fin n) (stored : Option (PlayerProfile V)) : Profiles n V :=
  { s with
    stored := stored
    calls := Function.update s.calls i .acknowledged
    acks := s.acks ++ [i] }

variable (pol : Policy) (msgs : Fin n → Message V)

/-- A patch is told to the actor that `resolve` has found. -/
def Addressed (id : ℕ) (i : Fin n) : Prop :=
  match msgs i, s.calls i with
  | .patch _, .routed j => j = id
  | .patch _, _ => False
  | _, _ => True

instance (id : ℕ) (i : Fin n) : Decidable (s.Addressed msgs id i) := by
  unfold Addressed
  split <;> infer_instance

/-- Can the process of an actor do this now? -/
def Admits (id : ℕ) (actor : PlayerActor n V) (a : ProcessAct n) : Prop :=
  (∀ i, a = .lookup i → s.Addressed msgs id i) ∧ (PlayerActor.ends a = true → actor.pending = false)

instance (id : ℕ) (actor : PlayerActor n V) (a : ProcessAct n) :
    Decidable (s.Admits msgs id actor a) :=
  inferInstanceAs (Decidable (_ ∧ _))

def actStep (id : ℕ) (a : ProcessAct n) : Option (Profiles n V) :=
  match s.actors id with
  | some actor =>
    if s.Admits msgs id actor a then
      (actor.proc.step pol a).map fun p => s.setActor id (actor.follow a p)
    else none
  | none => none

/-- `OnMessage`, and the closure of a checkpoint. -/
def onMessage (id : ℕ) (actor : PlayerActor n V) (i : Fin n) : Profiles n V :=
  match msgs i with
  | .patch fields =>
    (s.setActor id { actor with
      profile := (PlayerActor.applyPatch actor.profile s.stored fields).1
      pending := false }).acknowledge i (PlayerActor.applyPatch actor.profile s.stored fields).2
  | .checkpoint =>
    { s.setActor id { actor with pending := false } with
      stored := PlayerActor.save actor.profile s.stored }
  | .invoke => s.setActor id { actor with pending := false }

def callbackStep (id : ℕ) : Option (Profiles n V) :=
  match s.actors id with
  | some actor =>
    if actor.pending then
      match actor.proc.run with
      | .init => some (s.setActor id { actor with profile := some s.value, pending := false })
      | .handling i _ => some (s.onMessage msgs id actor i)
      | .stopped =>
        some { s.setActor id { actor with pending := false } with
          stored := PlayerActor.save actor.profile s.stored }
      | _ => none
    else none
  | none => none

/-- `Tell` has returned an error to the call. -/
def undelivered (id : ℕ) (i : Fin n) : Bool :=
  (s.actors id).any fun actor =>
    match actor.proc.tells i with
    | .returned (some _) => true
    | _ => false

def step (s : Profiles n V) : PatchAct n → Option (Profiles n V)
  | .login now =>
    match s.player with
    | some _ => some s
    | none => some (s.spawnPlayer now)
  | .release => some { s with player := none }
  | .act id a => s.actStep pol msgs id a
  | .callback id => s.callbackStep msgs id
  | .resolve i =>
    match s.calls i, s.player with
    | .notCalled, some id => some (s.setCall i (.routed id))
    | .notCalled, none => some (s.setCall i .loading)
    | _, _ => none
  | .fallBack i =>
    match s.calls i with
    | .routed id => if s.undelivered id i then some (s.setCall i .loading) else none
    | _ => none
  | .load i =>
    match s.calls i with
    | .loading => some (s.setCall i (.storing s.value s.acks.length))
    | _ => none
  | .store i =>
    match s.calls i with
    | .storing p _ => some (s.acknowledge i (some (applyProfilePatch p (msgs i).fields)))
    | _ => none

end Profiles

/-- A server that has no actor of the user yet, over what is stored. -/
def newProfiles (n : ℕ) {V : Type} (stored : Option (PlayerProfile V)) : Profiles n V where
  stored := stored
  nextID := 0
  player := none
  actors := fun _ => none
  calls := fun _ => .notCalled
  acks := []

namespace Profiles

variable {n : ℕ} {V : Type} {pol : Policy} {msgs : Fin n → Message V}

inductive Happens (pol : Policy) (msgs : Fin n → Message V) (s : Profiles n V) :
    PatchAct n → Profiles n V → Prop
  | relogin {now} : Happens pol msgs s (.login now) s
  | login {now} (hnone : s.player = none) : Happens pol msgs s (.login now) (s.spawnPlayer now)
  | release : Happens pol msgs s .release { s with player := none }
  | act {id actor a p} (hid : s.actors id = some actor) (hp : actor.proc.step pol a = some p) :
    Happens pol msgs s (.act id a) (s.setActor id (actor.follow a p))
  | init {id actor} (hid : s.actors id = some actor) (hrun : actor.proc.run = .init) :
    Happens pol msgs s (.callback id)
      (s.setActor id { actor with profile := some s.value, pending := false })
  /-- The actor patches its copy and saves it. -/
  | patch {id actor i recv fields}
    (hid : s.actors id = some actor) (hrun : actor.proc.run = .handling i recv)
    (hmsg : msgs i = .patch fields) :
    Happens pol msgs s (.callback id) ((s.setActor id { actor with
        profile := (PlayerActor.applyPatch actor.profile s.stored fields).1
        pending := false }).acknowledge i (PlayerActor.applyPatch actor.profile s.stored fields).2)
  | invoke {id actor} (hid : s.actors id = some actor) (hrun : actor.proc.run ≠ .stopped) :
    Happens pol msgs s (.callback id) (s.setActor id { actor with pending := false })
  /-- A checkpoint, or `OnStop`. -/
  | save {id actor} (hid : s.actors id = some actor)
    (hpending : actor.pending = true) (hrun : actor.proc.run.calling = true) :
    Happens pol msgs s (.callback id) { s.setActor id { actor with pending := false } with
        stored := PlayerActor.save actor.profile s.stored }
  | resolve {i c} (hc : c = .loading ∨ ∃ id, c = .routed id) :
    Happens pol msgs s (.resolve i) (s.setCall i c)
  | fallBack {i} : Happens pol msgs s (.fallBack i) (s.setCall i .loading)
  | load {i} : Happens pol msgs s (.load i) (s.setCall i (.storing s.value s.acks.length))
  /-- The room writes the profile back itself. -/
  | store {i p seen} (hi : s.calls i = .storing p seen) :
    Happens pol msgs s (.store i) (s.acknowledge i (some (applyProfilePatch p (msgs i).fields)))

variable {s s' : Profiles n V}

theorem happens_of_actStep {id : ℕ} {a : ProcessAct n} (h : s.actStep pol msgs id a = some s') :
    Happens pol msgs s (.act id a) s' := by
  unfold actStep at h
  split at h
  next actor hid =>
    obtain ⟨-, h⟩ := ite_none_right_eq_some.mp h
    obtain ⟨p, hp, rfl⟩ := map_eq_some_iff.mp h
    exact .act hid hp
  · cases h

theorem happens_of_callbackStep {id : ℕ} (h : s.callbackStep msgs id = some s') :
    Happens pol msgs s (.callback id) s' := by
  unfold callbackStep at h
  split at h
  next actor hid =>
    obtain ⟨hpending, h⟩ := ite_none_right_eq_some.mp h
    split at h <;> cases h
    next hrun => exact .init hid hrun
    next hrun =>
      unfold onMessage
      split
      next hmsg => exact .patch hid hrun hmsg
      · exact .save hid hpending (by rw [hrun]; rfl)
      · exact .invoke hid (by simp [hrun])
    next hrun => exact .save hid hpending (by rw [hrun]; rfl)
  · cases h

/-- **A step is one of the branches.** -/
theorem happens_of_step {a : PatchAct n} (h : s.step pol msgs a = some s') :
    Happens pol msgs s a s' := by
  rcases a
  case login =>
    simp only [step] at h
    split at h <;> cases h
    · exact .relogin
    next hnone => exact .login hnone
  case release =>
    cases h
    exact .release
  case act => exact happens_of_actStep h
  case callback => exact happens_of_callbackStep h
  case resolve =>
    simp only [step] at h
    split at h <;> cases h
    · exact .resolve (.inr ⟨_, rfl⟩)
    · exact .resolve (.inl rfl)
  case fallBack =>
    simp only [step] at h
    split at h
    · split at h <;> cases h
      · exact .fallBack
    · cases h
  case load =>
    simp only [step] at h
    split at h <;> cases h
    · exact .load
  case store =>
    simp only [step] at h
    split at h <;> cases h
    next hi => exact .store hi

end Profiles

end RanGame.App
