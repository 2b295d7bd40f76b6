import RanGame.App.Server

/-!
# The actor of a player

An actor may stop on its own; its entry in `players` stays, so `onSessionStart` believes it is
there. And a release callback knows the user only: it tears down what a login has set up for a newer
session.
-/

namespace RanGame.App

open Function Machine Option PartialMap Session Actor

namespace PlayerRegistry

variable {r : PlayerRegistry}

def Inverse (r : PlayerRegistry) : Prop := ∀ u id, r.byUID u = some id ↔ r.idToUID id = some u

variable {id j : ℕ}

theorem bindUID_byUID_of_fresh (hid : r.idToUID id = none) (uid : String) :
    (r.bindUID uid id).byUID = r.byUID.insert uid id := by
  simp only [PlayerRegistry.bindUID, hid]

theorem Inverse.bindUID (h : r.Inverse) (uid : String) (id : ℕ) : (r.bindUID uid id).Inverse := by
  intro u j
  have hu := h u j
  have huid := h uid
  rcases hid : r.idToUID id with _ | old
  · rcases hold : r.byUID uid with _ | oldID
    all_goals
      simp only [bindUID_byUID, bindUID_idToUID, hid, hold, insert_eq_some,
        erase_eq_some]
      grind
  · have hid' := (h old id).mpr hid
    rcases hold : r.byUID.erase old uid with _ | oldID
    all_goals
      simp only [bindUID_byUID, bindUID_idToUID, hid, hold, insert_eq_some,
        erase_eq_some]
      rw [erase, update_apply] at hold
      grind

theorem Inverse.unbind (h : r.Inverse) (id : ℕ) : (r.unbind id).Inverse := by
  unfold PlayerRegistry.unbind
  rcases hid : r.idToUID id with _ | uid
  · exact h
  · intro u j
    change r.byUID.erase uid u = some j ↔ r.idToUID.erase id j = some u
    rw [erase_eq_some, erase_eq_some, h u j]
    refine and_congr_left fun hj => not_congr ⟨?_, ?_⟩
    · rintro rfl
      exact some.inj (((h u j).mpr hj).symm.trans ((h u id).mpr hid))
    · rintro rfl
      exact some.inj (hj.symm.trans hid)

theorem Inverse.unbind_byUID (h : r.Inverse) {u : String} (hu : r.byUID u = some j) (hj : j ≠ id) :
    (r.unbind id).byUID u = some j := by
  unfold PlayerRegistry.unbind
  rcases hid : r.idToUID id with _ | uid
  · exact hu
  · refine erase_eq_some.mpr ⟨?_, hu⟩
    rintro rfl
    exact hj (some.inj (hu.symm.trans ((h u id).mpr hid)))

theorem unbind_idToUID_of_none (h : r.idToUID j = none) : (r.unbind id).idToUID j = none := by
  unfold PlayerRegistry.unbind
  split
  · by_cases hj : j = id
    · subst hj
      exact erase_self
    · exact (erase_of_ne hj).trans h
  · exact h

end PlayerRegistry

namespace Server

variable {n : ℕ} {C : Type*}

/-- How the tables agree. An actor in `players` may be gone. -/
structure Tables (s : Server n C) : Prop where
  inverse : s.registry.Inverse
  fresh : ∀ id, s.nextID < id → s.registry.idToUID id = none ∧ ∀ u, s.players u ≠ some id
  injective : ∀ u v id, s.players u = some id → s.players v = some id → u = v
  /-- An actor that a release callback is about to stop has no entry. -/
  taken : ∀ i id, s.releases i = .taken (some id) → id ≤ s.nextID ∧ ∀ u, s.players u ≠ some id
  bound : ∀ u id, s.players u = some id → s.actors id ≠ .finished → s.registry.byUID u = some id

theorem tables_newServer (clock : ℤ) : (newServer n C clock).Tables where
  inverse := fun _ _ => by simp [newServer]
  fresh := fun _ _ => by simp [newServer]
  injective := fun _ _ _ h => by simp [newServer] at h
  taken := fun _ _ h => by simp [newServer] at h
  bound := fun _ _ h => by simp [newServer] at h

variable {s s' : Server n C}

theorem Tables.spawnPlayer (h : s.Tables) {uid : String} (hnone : s.players uid = none) :
    (s.spawnPlayer uid).Tables := by
  obtain ⟨hid, hnew⟩ := h.fresh (s.nextID + 1) (Nat.lt_succ_self _)
  refine ⟨h.inverse.bindUID uid _, ?_, ?_, ?_, ?_⟩
  · intro id hlt
    obtain ⟨hfree, hplayers⟩ := h.fresh id (Nat.lt_of_succ_lt hlt)
    have hne : id ≠ s.nextID + 1 := Nat.ne_of_gt hlt
    refine ⟨?_, fun u hu => ?_⟩
    · refine eq_none_iff_forall_ne_some.mpr fun u hu => ?_
      have hbound := ((h.inverse.bindUID uid _) u id).mpr hu
      rw [PlayerRegistry.bindUID_byUID_of_fresh hid] at hbound
      rcases insert_eq_some.mp hbound with ⟨-, heq⟩ | ⟨-, hu⟩
      · exact hne heq.symm
      · rw [(h.inverse u id).mp hu] at hfree
        cases hfree
    · rcases insert_eq_some.mp hu with ⟨-, heq⟩ | ⟨-, hu⟩
      · exact hne heq.symm
      · exact hplayers u hu
  · intro u v id hu hv
    rcases insert_eq_some.mp hu with ⟨huid, hu⟩ | ⟨-, hu⟩ <;>
    rcases insert_eq_some.mp hv with ⟨hvid, hv⟩ | ⟨-, hv⟩
    · exact huid.trans hvid.symm
    · exact absurd (hu ▸ hv) (hnew v)
    · exact absurd (hv ▸ hu) (hnew u)
    · exact h.injective u v id hu hv
  · intro i id hi
    obtain ⟨hle, hno⟩ := h.taken i id hi
    refine ⟨hle.trans (Nat.le_succ _), fun u hu => ?_⟩
    rcases insert_eq_some.mp hu with ⟨-, rfl⟩ | ⟨-, hu⟩
    · exact absurd hle (Nat.not_succ_le_self _)
    · exact hno u hu
  · intro u id hu hlive
    rw [spawnPlayer_registry, PlayerRegistry.bindUID_byUID_of_fresh hid, insert_eq_some]
    rcases insert_eq_some.mp hu with ⟨rfl, rfl⟩ | ⟨hne, hu⟩
    · exact .inl ⟨rfl, rfl⟩
    · refine .inr ⟨hne, h.bound u id hu ?_⟩
      have hold : id ≠ s.nextID + 1 := by
        rintro rfl
        exact hnew u hu
      simpa [update_of_ne hold] using hlive

theorem Tables.of_same (h : s.Tables) (hnext : s'.nextID = s.nextID)
    (hactors : s'.actors = s.actors) (hplayers : s'.players = s.players)
    (hregistry : s'.registry = s.registry)
    (htaken : ∀ i id, s'.releases i = .taken (some id) → s.releases i = .taken (some id)) :
    s'.Tables where
  inverse := hregistry ▸ h.inverse
  fresh := by
    rw [hnext, hplayers, hregistry]
    exact h.fresh
  injective := hplayers ▸ h.injective
  taken := by
    rw [hnext, hplayers]
    exact fun i id hi => h.taken i id (htaken i id hi)
  bound := by
    rw [hplayers, hactors, hregistry]
    exact h.bound

theorem Tables.stopping (h : s.Tables) {id : ℕ} (hrun : s.actors id = .running) :
    (s.setActor id .stopping).Tables where
  __ := h
  bound := by
    intro u j hu hlive
    refine h.bound u j hu ?_
    by_cases hj : j = id
    · subst hj
      simp [hrun]
    · simpa [update_of_ne hj] using hlive

theorem Tables.finish (h : s.Tables) (id : ℕ) :
    Tables { s.setActor id .finished with registry := s.registry.unbind id } where
  __ := h
  inverse := h.inverse.unbind id
  fresh := fun j hj => ⟨PlayerRegistry.unbind_idToUID_of_none (h.fresh j hj).1, (h.fresh j hj).2⟩
  bound := by
    intro u j hu hlive
    have hj : j ≠ id := by
      rintro rfl
      exact hlive (update_self ..)
    refine h.inverse.unbind_byUID (h.bound u j hu ?_) hj
    simpa [update_of_ne hj] using hlive

theorem Tables.takePlayer (h : s.Tables) (i : Fin n) (uid : String) :
    Tables { s.setRelease i (.taken (s.players uid)) with players := s.players.erase uid } where
  __ := h
  fresh := fun id hid => ⟨(h.fresh id hid).1, fun u hu =>
    (h.fresh id hid).2 u (erase_eq_some.mp hu).2⟩
  injective := fun u v id hu hv =>
    h.injective u v id (erase_eq_some.mp hu).2 (erase_eq_some.mp hv).2
  taken := by
    intro j id hj
    rcases of_update (P := (· = Release.taken (some id))) hj with ⟨-, hid⟩ | ⟨-, hj⟩
    · have hid : s.players uid = some id := Release.taken.inj hid
      refine ⟨?_, fun u hu => ?_⟩
      · by_contra hlt
        exact (h.fresh id (Nat.lt_of_not_le hlt)).2 uid hid
      · obtain ⟨hne, hu⟩ := erase_eq_some.mp hu
        exact hne (h.injective u uid id hu hid)
    · obtain ⟨hle, hno⟩ := h.taken j id hj
      exact ⟨hle, fun u hu => hno u (erase_eq_some.mp hu).2⟩
  bound := fun u id hu => h.bound u id (erase_eq_some.mp hu).2

theorem taken_of_setRelease {i j : Fin n} {r : Release} {id : ℕ} (hr : r ≠ .taken (some id))
    (h : (s.setRelease i r).releases j = .taken (some id)) : s.releases j = .taken (some id) := by
  rcases of_update (P := (· = Release.taken (some id))) h with ⟨-, heq⟩ | ⟨-, hj⟩
  · exact absurd heq hr
  · exact hj

section Runs

variable [DecidableEq C] {role : Role} {ID : C → UInt64} {cfg : Config}

theorem Tables.step (h : s.Tables) {a : ServerAct n C} (hstep : s.step role ID cfg a = some s') :
    s'.Tables := by
  cases happens_of_step hstep with
  | act | bindRoute | restart => exact h.of_same rfl rfl rfl rfl fun _ _ => id
  | start hx hi hnone => exact (h.spawnPlayer hnone).of_same rfl rfl rfl rfl fun _ _ => id
  | unbindRoute | stopNone | notify =>
    exact h.of_same rfl rfl rfl rfl fun _ _ => taken_of_setRelease (by simp)
  | takePlayer => exact h.takePlayer ..
  | stopActor hi hrun =>
    exact (h.stopping hrun).of_same rfl rfl rfl rfl fun _ _ => taken_of_setRelease (by simp)
  | die hid => exact h.stopping hid
  | finish => exact h.finish _

theorem tables_of_run {clock : ℤ} {acts : List (ServerAct n C)}
    (hrun : run (step role ID cfg) (newServer n C clock) acts = some s) : s.Tables :=
  invariant_of_run (I := Tables) (fun _ _ _ h _ hstep => h.step hstep)
    (tables_newServer clock) along_true hrun

/-- **A session that starts gets its actor**, unless there was an entry for one about to stop. -/
theorem start_resolves {clock : ℤ} {acts : List (ServerAct n C)}
    (hrun : run (step role ID cfg) (newServer n C clock) acts = some s) {i x : Fin n}
    (hx : serves i (s.sessions.calls i) = some x)
    (halive : ∀ id, s.players (s.uid x) = some id → s.actors id = .running)
    (hstep : s.step role ID cfg (.start i) = some s') :
    ∃ id, s'.registry.byUID (s.uid x) = some id ∧ s'.actors id = .running := by
  have h := tables_of_run hrun
  cases happens_of_step hstep with
  | @restart _ y id hy hi hid =>
    obtain rfl : x = y := some.inj (hx.symm.trans hy)
    have hrunning := halive id hid
    exact ⟨id, h.bound _ id hid (by simp [hrunning]), hrunning⟩
  | @start _ y hy hi hnone =>
    obtain rfl : x = y := some.inj (hx.symm.trans hy)
    have hid := (h.fresh (s.nextID + 1) (Nat.lt_succ_self _)).1
    refine ⟨s.nextID + 1, ?_, update_self ..⟩
    change (s.registry.bindUID (s.uid x) (s.nextID + 1)).byUID (s.uid x) = _
    rw [PlayerRegistry.bindUID_byUID_of_fresh hid, insert_self]

end Runs

/-- Alice logs in, her connection drops, and she reconnects. -/
def reconnectActs : List (ServerAct 3 UInt64) :=
  [.act (.create 0 "alice" 1 0 "t0"), .start 0, .act (.markOfflineConn 1 0 1),
    .act (.goOffline 1), .act (.dropConn 1), .act (.closeConn 1), .act (.reconnect 2 "t0" 2 0),
    .act (.rotate 2 "t1"), .act (.bind 2), .act (.goOnline 2), .act (.clearOffline 2),
    .act (.reindex 2), .act (.closeOld 2)]

theorem start_resolves_reconnect : ∃ s s',
    run (step .standalone id (Config.withDefaults 60)) (newServer 3 UInt64 100)
        reconnectActs = some s ∧
      s.step .standalone id (Config.withDefaults 60) (.start 2) = some s' ∧
      ∃ id, s'.registry.byUID "alice" = some id ∧ s'.actors id = .running := by
  obtain ⟨s, hrun, hx, huid, hplayers, hactors, hnext⟩ := exists_of_run
    (step .standalone id (Config.withDefaults 60)) (newServer 3 UInt64 100) reconnectActs
    (fun s => serves 2 (s.sessions.calls 2) = some 0 ∧ s.uid 0 = "alice" ∧
      s.players "alice" = some 1 ∧ s.actors 1 = .running ∧
      (s.step .standalone id (Config.withDefaults 60) (.start 2)).isSome = true)
    (by decide +kernel)
  obtain ⟨s', hstep⟩ := isSome_iff_exists.mp hnext
  refine ⟨s, s', hrun, hstep, huid ▸ start_resolves hrun hx ?_ hstep⟩
  intro j hj
  rw [huid, hplayers] at hj
  exact some.inj hj ▸ hactors

/-- The actor stops on its own before the connection drops. -/
def stoppedActs : List (ServerAct 3 UInt64) :=
  reconnectActs.take 2 ++ [ServerAct.die 1, .finish 1] ++ reconnectActs.drop 2 ++
    [ServerAct.start 2]

/-- The session is online, but the user resolves to no actor. -/
theorem start_without_actor : ∃ s,
    run (step .standalone id (Config.withDefaults 60)) (newServer 3 UInt64 100)
        stoppedActs = some s ∧
      s.handlers 2 = .completed ∧ (s.sessions.sess 0).st = .stateOnline ∧
      s.sessions.Registered 0 ∧ s.registry.byUID (s.uid 0) = none :=
  exists_of_run _ _ _ _ (by decide +kernel)

/-! ### Logins and late releases -/

/-- Session `x` was made by a login, and is not released. -/
def LoggedIn (s : Server n C) (x : Fin n) : Prop :=
  s.sessions.calls x = .created ∧ s.released x = false

/-- No release callback takes away the route or the player of a session that is not released. -/
def Timely (s : Server n C) : ServerAct n C → Prop
  | .unbindRoute i => ∀ x ∈ notifies (s.sessions.calls i), ∀ y, s.LoggedIn y →
      s.handlers y ≠ .begun → s.uid y ≠ s.uid x
  | .takePlayer i => ∀ x ∈ notifies (s.sessions.calls i), ∀ y, s.LoggedIn y →
      s.handlers y = .completed → s.uid y ≠ s.uid x
  | _ => True

instance [DecidableEq C] (s : Server n C) (x : Fin n) : Decidable (s.LoggedIn x) :=
  inferInstanceAs (Decidable (_ ∧ _))

instance [DecidableEq C] (s : Server n C) (a : ServerAct n C) : Decidable (s.Timely a) := by
  unfold Timely
  split <;> infer_instance

/-- What the logins have set up is there, as long as no actor stops on its own. -/
structure Attended (role : Role) (s : Server n C) : Prop where
  /-- A handler goes on only when the session manager has returned. -/
  handled : ∀ i, s.handlers i ≠ .begun → ∃ x, serves i (s.sessions.calls i) = some x
  running : ∀ u id, s.players u = some id → s.actors id = .running
  routed : ∀ nodeID, role = .logic nodeID → ∀ x, s.LoggedIn x → s.handlers x ≠ .begun →
    s.routes (s.uid x) = some nodeID
  started : ∀ x, s.LoggedIn x → s.handlers x = .completed → ∃ id, s.players (s.uid x) = some id

theorem attended_newServer (role : Role) (clock : ℤ) : (newServer n C clock).Attended role where
  handled := fun _ h => absurd rfl h
  running := fun _ _ h => by simp [newServer] at h
  routed := fun _ _ _ _ h => absurd rfl h
  started := fun _ _ h => by simp [newServer] at h

variable {role : Role}

variable {i x : Fin n}

theorem serves_of_created {call : Call n C} (hcall : call = .created)
    (hx : serves i call = some x) : x = i := by
  rw [hcall] at hx
  exact (some.inj hx).symm

section

variable (h : s.Attended role)

include h

theorem Attended.bindRoute {nodeID : String} (hrole : role = .logic nodeID)
    (hx : serves i (s.sessions.calls i) = some x) :
    Attended role { s.setHandler i .routed with routes := s.routes.insert (s.uid x) nodeID } where
  __ := h
  handled := by
    intro j hj
    rcases of_update (P := (· ≠ Handler.begun)) hj with ⟨rfl, -⟩ | ⟨-, hj⟩
    · exact ⟨x, hx⟩
    · exact h.handled j hj
  routed := by
    intro node hnode y hy hhandler
    obtain rfl : nodeID = node := Role.logic.inj (hrole.symm.trans hnode)
    by_cases huid : s.uid y = s.uid x
    · exact huid ▸ insert_self
    · refine (insert_of_ne huid).trans ?_
      rcases of_update (P := (· ≠ Handler.begun)) hhandler with ⟨rfl, -⟩ | ⟨-, hhandler⟩
      · exact absurd (congrArg s.uid (serves_of_created hy.1 hx).symm) huid
      · exact h.routed nodeID hnode y hy hhandler
  started := by
    intro y hy hhandler
    rcases of_update (P := (· = Handler.completed)) hhandler with ⟨-, heq⟩ | ⟨-, hhandler⟩
    · cases heq
    · exact h.started y hy hhandler

theorem Attended.spawnPlayer (htables : s.Tables) (uid : String) :
    (s.spawnPlayer uid).Attended role where
  __ := h
  running := by
    intro u id hu
    rcases insert_eq_some.mp hu with ⟨-, rfl⟩ | ⟨-, hu⟩
    · exact update_self ..
    · have hne : id ≠ s.nextID + 1 := by
        rintro rfl
        exact (htables.fresh _ (Nat.lt_succ_self _)).2 u hu
      exact (update_of_ne hne ..).trans (h.running u id hu)
  started := by
    intro x hx hhandler
    by_cases huid : s.uid x = uid
    · exact ⟨s.nextID + 1, huid ▸ insert_self⟩
    · obtain ⟨id, hid⟩ := h.started x hx hhandler
      exact ⟨id, (insert_of_ne huid).trans hid⟩

theorem Attended.completed {id : ℕ} (hx : serves i (s.sessions.calls i) = some x)
    (hi : s.Starts role i) (hid : s.players (s.uid x) = some id) :
    (s.setHandler i .completed).Attended role where
  __ := h
  handled := by
    intro j hj
    rcases of_update (P := (· ≠ Handler.begun)) hj with ⟨rfl, -⟩ | ⟨-, hj⟩
    · exact ⟨x, hx⟩
    · exact h.handled j hj
  routed := by
    intro nodeID hrole y hy hhandler
    rcases of_update (P := (· ≠ Handler.begun)) hhandler with ⟨rfl, -⟩ | ⟨-, hhandler⟩
    · -- on a Logic node the route comes first
      subst hrole
      exact h.routed nodeID rfl y hy (by simp [hi.1])
    · exact h.routed nodeID hrole y hy hhandler
  started := by
    intro y hy hhandler
    rcases of_update (P := (· = Handler.completed)) hhandler with ⟨rfl, -⟩ | ⟨-, hhandler⟩
    · exact ⟨id, serves_of_created hy.1 hx ▸ hid⟩
    · exact h.started y hy hhandler

theorem Attended.unbindRoute {nodeID : String} (hx : notifies (s.sessions.calls i) = some x)
    (htimely : s.Timely (.unbindRoute i)) :
    Attended role { s.setRelease i .unrouted with
      routes := s.routes.eraseIf (s.uid x) nodeID } where
  __ := h
  routed := by
    intro node hnode y hy hhandler
    refine eraseIf_eq_some.mpr ⟨h.routed node hnode y hy hhandler, fun heq => ?_⟩
    exact htimely x hx y hy hhandler heq.1

theorem Attended.takePlayer (hx : notifies (s.sessions.calls i) = some x)
    (htimely : s.Timely (.takePlayer i)) :
    Attended role { s.setRelease i (.taken (s.players (s.uid x))) with
      players := s.players.erase (s.uid x) } where
  __ := h
  running := fun u id hu => h.running u id (erase_eq_some.mp hu).2
  started := by
    intro y hy hhandler
    obtain ⟨id, hid⟩ := h.started y hy hhandler
    exact ⟨id, erase_eq_some.mpr ⟨htimely x hx y hy hhandler, hid⟩⟩

theorem Attended.setActor {id : ℕ} (hid : ∀ u, s.players u ≠ some id) (l : Life) :
    (s.setActor id l).Attended role where
  __ := h
  running := by
    intro u j hu
    have hne : j ≠ id := by
      rintro rfl
      exact hid u hu
    exact (update_of_ne hne ..).trans (h.running u j hu)

theorem Attended.setRelease (i : Fin n) (r : Release) : (s.setRelease i r).Attended role :=
  { h with }

end

section Attendance

variable [DecidableEq C] {ID : C → UInt64} {cfg : Config}

theorem Attended.sessions (h : s.Attended role) {a : ManagerAct n C} {m : Manager n C}
    (hm : s.sessions.step ID cfg a = some m) {released : Fin n → Bool}
    (hrel : ∀ x, released x = false → s.released x = false) :
    Attended role { s with sessions := m, released := released } := by
  have hcalls : ∀ i, s.handlers i ≠ .begun → m.calls i = s.sessions.calls i := by
    intro i hi
    obtain ⟨x, hx⟩ := h.handled i hi
    refine Manager.calls_of_step hm ?_
    unfold serves at hx
    split at hx
    · exact .inl ‹_›
    · exact .inr ⟨_, _, ‹_›⟩
    · cases hx
  have huid : ∀ i, s.handlers i ≠ .begun → (m.sess i).uid = s.uid i := by
    intro i hi
    obtain ⟨x, hx⟩ := h.handled i hi
    refine Manager.uid_of_step (fun hnot => ?_) hm
    rw [hnot] at hx
    cases hx
  have hlogged : ∀ i, s.handlers i ≠ .begun → m.calls i = .created → released i = false →
      s.LoggedIn i :=
    fun i hi hc hr => ⟨(hcalls i hi).symm.trans hc, hrel i hr⟩
  refine ⟨?_, h.running, ?_, ?_⟩
  · intro i hi
    obtain ⟨x, hx⟩ := h.handled i hi
    exact ⟨x, (congrArg (serves i) (hcalls i hi)).trans hx⟩
  · rintro nodeID hrole x ⟨hc, hr⟩ hx
    exact (congrArg s.routes (huid x hx)).trans (h.routed nodeID hrole x (hlogged x hx hc hr) hx)
  · rintro x ⟨hc, hr⟩ hx
    have hbegun : s.handlers x ≠ .begun := by
      change s.handlers x = .completed at hx
      simp [hx]
    obtain ⟨id, hid⟩ := h.started x (hlogged x hbegun hc hr) hx
    exact ⟨id, (congrArg s.players (huid x hbegun)).trans hid⟩

theorem Attended.step (h : s.Attended role) (htables : s.Tables) {a : ServerAct n C}
    (hdie : ∀ id, a ≠ .die id) (htimely : s.Timely a)
    (hstep : s.step role ID cfg a = some s') : s'.Attended role := by
  cases happens_of_step hstep with
  | @act a m released hm hrel =>
    refine h.sessions hm fun x hx => ?_
    rw [hrel] at hx
    split at hx
    · rcases of_update (P := (· = false)) hx with ⟨-, heq⟩ | ⟨-, hx⟩
      · cases heq
      · exact hx
    · exact hx
  | bindRoute hrole hx hi => exact h.bindRoute hrole hx
  | restart hx hi hid => exact h.completed hx hi hid
  | start hx hi hnone => exact (h.spawnPlayer htables _).completed hx hi insert_self
  | unbindRoute hrole hx => exact h.unbindRoute hx htimely
  | takePlayer hx => exact h.takePlayer hx htimely
  | stopActor hi hrun => exact (h.setActor (htables.taken _ _ hi).2 _).setRelease _ _
  | stopNone => exact h.setRelease _ _
  | notify hm => exact (h.setRelease _ _).sessions hm fun _ hx => hx
  | die => exact absurd rfl (hdie _)
  | @finish id hid =>
    have hno : ∀ u, s.players u ≠ some id := by
      intro u hu
      rw [h.running u id hu] at hid
      cases hid
    obtain ⟨hhandled, hrunning, hrouted, hstarted⟩ := h.setActor hno .finished
    exact ⟨hhandled, hrunning, hrouted, hstarted⟩

/-- **A login keeps its actor and its route**, if no actor stops on its own and no callback is late.
-/
theorem login_keeps_actor {clock : ℤ} {acts : List (ServerAct n C)}
    (hrun : run (step role ID cfg) (newServer n C clock) acts = some s)
    (hdie : ∀ id, ServerAct.die id ∉ acts)
    (htimely : Along (step role ID cfg) Timely (newServer n C clock) acts)
    {x : Fin n} (hx : s.sessions.calls x = .created) (hdone : s.handlers x = .completed)
    (hkept : s.released x = false) :
    (∃ id, s.registry.byUID (s.uid x) = some id ∧ s.actors id = .running) ∧
      ∀ nodeID, role = .logic nodeID → s.routes (s.uid x) = some nodeID := by
  have hactions : ∀ a ∈ acts, ∀ id, a ≠ ServerAct.die id := by
    rintro a ha id rfl
    exact hdie id ha
  obtain ⟨htables, h⟩ := invariant_of_run (I := fun s => s.Tables ∧ s.Attended role)
    (fun _ _ _ h hcond hstep => ⟨h.1.step hstep, h.2.step h.1 hcond.1 hcond.2 hstep⟩)
    ⟨tables_newServer clock, attended_newServer role clock⟩
    ((along_of_forall_mem hactions).and htimely) hrun
  obtain ⟨id, hid⟩ := h.started x ⟨hx, hkept⟩ hdone
  have hrunning := h.running _ id hid
  exact ⟨⟨id, htables.bound _ id hid (by simp [hrunning]), hrunning⟩,
    fun nodeID hrole => h.routed nodeID hrole x ⟨hx, hkept⟩ (by simp [hdone])⟩

end Attendance

/-- The callback of the session that call `i` replaces, on a Logic node. -/
def releaseActs (i : Fin 3) : List (ServerAct 3 UInt64) :=
  [.act (.unindex i), .act (.takeConn i), .act (.release i), .act (.close i), .unbindRoute i,
    .takePlayer i, .stopActor i, .notify i]

def secondLoginActs : List (ServerAct 3 UInt64) :=
  [ServerAct.act (.create 0 "alice" 1 0 "t0"), .bindRoute 0, .start 0,
    .act (.create 1 "alice" 2 0 "t1")] ++ releaseActs 1 ++
    [ServerAct.bindRoute 1, .start 1, .finish 1]

theorem login_keeps_actor_secondLogin : ∃ s,
    run (step (.logic "logic-1") id (Config.withDefaults 60)) (newServer 3 UInt64 100)
        secondLoginActs = some s ∧
      s.released 0 = true ∧
      (∃ id, s.registry.byUID (s.uid 1) = some id ∧ s.actors id = .running) ∧
      s.routes (s.uid 1) = some "logic-1" := by
  obtain ⟨s, hrun, hold, hcall, hdone, hkept⟩ := exists_of_run
    (step (.logic "logic-1") id (Config.withDefaults 60)) (newServer 3 UInt64 100) secondLoginActs
    (fun s => s.released 0 = true ∧ s.sessions.calls 1 = .created ∧ s.handlers 1 = .completed ∧
      s.released 1 = false)
    (by decide +kernel)
  obtain ⟨hactor, hroute⟩ := login_keeps_actor hrun (by simp [secondLoginActs, releaseActs])
    (by decide +kernel) hcall hdone hkept
  exact ⟨s, hrun, hold, hactor, hroute "logic-1" rfl⟩

/-- Alice's third login is complete when the second gets to releasing the first session. -/
def lateReleaseActs : List (ServerAct 3 UInt64) :=
  [ServerAct.act (.create 0 "alice" 1 0 "t0"), .bindRoute 0, .start 0,
    .act (.create 1 "alice" 2 0 "t1"), .act (.create 2 "alice" 3 0 "t2")] ++ releaseActs 2 ++
    [ServerAct.bindRoute 2, .start 2] ++ releaseActs 1

/-- The release of the first session has taken route and actor of the third. -/
theorem newer_login_torn_down : ∃ s,
    run (step (.logic "logic-1") id (Config.withDefaults 60)) (newServer 3 UInt64 100)
        lateReleaseActs = some s ∧
      (∀ id, ServerAct.die id ∉ lateReleaseActs) ∧
      s.sessions.calls 2 = .created ∧ s.handlers 2 = .completed ∧ s.released 2 = false ∧
      s.registry.byUID (s.uid 2) = some 2 ∧ s.actors 2 = .stopping ∧
      s.routes (s.uid 2) = none := by
  obtain ⟨s, hrun, hend⟩ := exists_of_run
    (step (.logic "logic-1") id (Config.withDefaults 60)) (newServer 3 UInt64 100) lateReleaseActs
    (fun s => s.sessions.calls 2 = .created ∧ s.handlers 2 = .completed ∧
      s.released 2 = false ∧ s.registry.byUID (s.uid 2) = some 2 ∧ s.actors 2 = .stopping ∧
      s.routes (s.uid 2) = none)
    (by decide +kernel)
  exact ⟨s, hrun, by simp [lateReleaseActs, releaseActs], hend⟩

end Server

end RanGame.App
