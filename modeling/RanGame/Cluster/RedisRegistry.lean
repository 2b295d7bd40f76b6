import RanGame.Cluster.Registry
import RanGame.Lib.PartialMap

/-!
# The registry of nodes on Redis

Each node has one key, which expires `NodeTTL` after it was last written. `Heartbeat` and `SetState`
read the entry, change it and write it back, and a heartbeat can write back the state from before
`SetState`. An entry that has expired does not come back. A Gateway has no heartbeat at all.
-/

namespace RanGame.Cluster

open Function Machine PartialMap Option

/-! ### Concurrent calls -/

def NodeState.rank : NodeState → ℕ
  | .active => 1
  | .draining => 2
  | .drained => 3
  | .down => 4

/-- `RedisRegistry`: the entries, their expiry, and what each caller is about to write. -/
structure RedisRegistry (ι : Type) where
  nodeTTL : ℕ
  now : ℕ
  entries : PartialMap String (NodeInfo × ℕ)
  pending : PartialMap ι (String × NodeInfo)

/-- The first part of a call, which reads, or the second, which writes. -/
inductive RedisAct (ι : Type)
  | register (i : ι) (info : NodeInfo)
  | heartbeat (i : ι) (id : String) (activeRooms : ℤ)
  | setState (i : ι) (id : String) (state : NodeState)
  | write (i : ι)
  | deregister (id : String)
  | pass (d : ℕ)

def RedisAct.target {ι : Type} : RedisAct ι → Option String
  | .register _ info => some info.id
  | .setState _ id _ => some id
  | _ => none

namespace RedisRegistry

variable {ι : Type} [DecidableEq ι] {s s' : RedisRegistry ι} {a : RedisAct ι} {id : String} {r : ℕ}

/-- `Get`. `StartedAt` is not stored. -/
def get (s : RedisRegistry ι) (id : String) : Option NodeInfo :=
  ((s.entries id).filter fun e => s.now < e.2).map fun e => { e.1 with startedAt := e.1.lastBeat }

/-- A caller has read the entry of a node, if there is one, and is about to write it. -/
def update (s : RedisRegistry ι) (i : ι) (id : String) (f : NodeInfo → NodeInfo) :
    Option (RedisRegistry ι) :=
  match s.pending i, s.get id with
  | some _, _ => none
  | none, none => some s
  | none, some n => some { s with pending := s.pending.insert i (id, f n) }

def step (s : RedisRegistry ι) : RedisAct ι → Option (RedisRegistry ι)
  | .register i info =>
    if s.pending i = none then
      some { s with pending := s.pending.insert i (info.id, { info with
        lastBeat := info.lastBeat.or (some s.now), startedAt := info.startedAt.or (some s.now) }) }
    else none
  | .heartbeat i id activeRooms =>
    s.update i id fun n => { n with activeRooms, lastBeat := some s.now }
  | .setState i id state => s.update i id fun n => { n with state, lastBeat := some s.now }
  | .write i => (s.pending i).map fun w =>
      { s with
        entries := s.entries.insert w.1 (w.2, s.now + s.nodeTTL)
        pending := s.pending.erase i }
  | .deregister id => some { s with entries := s.entries.erase id }
  | .pass d => some { s with now := s.now + d }

/-- The node is in a state from this number on, also after what is pending. -/
structure Past (id : String) (r : ℕ) (s : RedisRegistry ι) : Prop where
  entry : ∀ e ∈ s.entries id, r ≤ e.1.state.rank
  pending : ∀ i, ∀ w ∈ s.pending i, w.1 = id → r ≤ w.2.state.rank

omit [DecidableEq ι] in
theorem Past.get (h : Past id r s) {n : NodeInfo} (hn : s.get id = some n) : r ≤ n.state.rank := by
  obtain ⟨e, he, rfl⟩ := map_eq_some_iff.mp hn
  exact h.entry e (filter_eq_some_iff.mp he).1

theorem Past.update (h : Past id r s) {i : ι} {k : String} {f : NodeInfo → NodeInfo}
    (hf : k = id → ∀ n, s.get id = some n → r ≤ (f n).state.rank)
    (hstep : s.update i k f = some s') : Past id r s' := by
  rw [RedisRegistry.update] at hstep
  split at hstep <;> cases hstep
  · exact h
  next n hpend hget =>
    refine ⟨h.entry, fun j w hw hid => ?_⟩
    obtain ⟨-, rfl⟩ | ⟨-, hw⟩ := insert_eq_some.mp hw
    · exact hf hid n (hid ▸ hget)
    · exact h.pending j w hw hid

theorem Past.step (h : Past id r s) (ha : a.target ≠ some id) (hstep : s.step a = some s') :
    Past id r s' := by
  cases a with
  | register i info =>
    obtain ⟨-, ⟨⟩⟩ := ite_none_right_eq_some.mp hstep
    refine ⟨h.entry, fun j w hw hid => ?_⟩
    obtain ⟨-, rfl⟩ | ⟨-, hw⟩ := insert_eq_some.mp hw
    · exact absurd (congrArg some hid) ha
    · exact h.pending j w hw hid
  | heartbeat i k rooms =>
    refine h.update ?_ hstep
    exact fun _ n hn => h.get (n := n) hn
  | setState i k state => exact h.update (fun hk => absurd (congrArg some hk) ha) hstep
  | write i =>
    obtain ⟨w, hw, rfl⟩ := map_eq_some_iff.mp hstep
    refine ⟨fun e he => ?_, fun j v hv => h.pending j v (erase_eq_some.mp hv).2⟩
    obtain ⟨rfl, rfl⟩ | ⟨-, he⟩ := insert_eq_some.mp he
    · exact h.pending i w hw rfl
    · exact h.entry e he
  | deregister k =>
    cases hstep
    exact ⟨fun e he => h.entry e (erase_eq_some.mp he).2, h.pending⟩
  | pass d =>
    cases hstep
    exact ⟨h.entry, h.pending⟩

/-- **A state that has been set stays** until another one is set, if nobody was about to write back
an earlier one. -/
theorem setState_lasts {s₁ : RedisRegistry ι} {i : ι} {n : NodeInfo} {acts : List (RedisAct ι)}
    (hi : s.pending i = some (id, n)) (hwrite : s.step (.write i) = some s₁)
    (hother : ∀ j, ∀ w ∈ s₁.pending j, w.1 = id → n.state.rank ≤ w.2.state.rank)
    (hrun : run step s₁ acts = some s') (hlater : ∀ a ∈ acts, a.target ≠ some id) :
    ∀ m ∈ s'.get id, n.state.rank ≤ m.state.rank := by
  have h : Past id n.state.rank s' := by
    refine invariant_of_run (G := fun _ a => a.target ≠ some id)
      (fun _ _ _ h ha hs => h.step ha hs) ⟨fun e he => ?_, hother⟩
      (along_of_forall_mem hlater) hrun
    simp only [RedisRegistry.step, hi, map_some, some.injEq] at hwrite
    rw [← hwrite] at he
    obtain rfl := some.inj (insert_self.symm.trans he)
    exact le_rfl
  exact fun m hm => h.get hm

def logicInfo : NodeInfo := ⟨"logic-0", "logic", "", [], .active, 0, none, none⟩

/-- The node has been registered for a second. Two callers are there. -/
def registered : RedisRegistry (Fin 2) :=
  ⟨15, 1, fun id => if id = "logic-0" then some (logicInfo, 15) else none, fun _ => none⟩

/-- The second caller is about to set the node to draining. -/
def settingDraining : RedisRegistry (Fin 2) :=
  { registered with pending := fun i =>
      if i = 1 then some ("logic-0", { logicInfo with state := .draining }) else none }

def beatActs : List (RedisAct (Fin 2)) := [.heartbeat 0 "logic-0" 3, .pass 9, .write 0, .pass 9]

theorem setState_lasts_draining : ∃ s₁ s', settingDraining.step (.write 1) = some s₁ ∧
    run step s₁ beatActs = some s' ∧
    ∃ m ∈ s'.get "logic-0", m.activeRooms = 3 ∧ 2 ≤ m.state.rank := by
  refine ⟨_, _, rfl, rfl, _, rfl, rfl, ?_⟩
  exact @setState_lasts _ _ settingDraining _ "logic-0" _ 1 _ beatActs rfl rfl (by decide) rfl
    (by decide) _ rfl

/-- The heartbeat has read the entry before the node is set to draining. -/
theorem heartbeat_undoes_setState :
    ((run step registered [.heartbeat 0 "logic-0" 3, .setState 1 "logic-0" .draining,
      .write 1, .write 0]).bind (·.get "logic-0")).map NodeInfo.state = some .active := by
  decide

end RedisRegistry

/-! ### Heartbeats -/

/-- The period of `logicHeartbeatLoop`, in nanoseconds. -/
def heartbeatInterval : ℕ := 5000000000

/-- A process that registers its node at time zero, and when Redis is there. -/
structure ClusterProcess where
  isLogic : Bool
  nodeTTL : ℕ
  reachable : ℕ → Bool
  /-- When the node is drained, and `SetState` is called. -/
  drains : ℕ → Bool

namespace ClusterProcess

variable {p : ClusterProcess} {t : ℕ}

/-- `logicHeartbeatLoop` or `SetState` writes the entry, if there is one. -/
def Writes (p : ClusterProcess) (t : ℕ) : Prop :=
  p.isLogic = true ∧ heartbeatInterval ∣ t ∨ p.drains t = true

instance : Decidable (p.Writes t) := inferInstanceAs (Decidable (_ ∨ _))

/-- When the entry expires, after what is done at a time. Errors are dropped. -/
def expiry (p : ClusterProcess) : ℕ → Option ℕ
  | 0 => if p.reachable 0 then some p.nodeTTL else none
  | t + 1 => (p.expiry t).map fun e =>
      if p.Writes (t + 1) ∧ p.reachable (t + 1) = true ∧ t + 1 < e then t + 1 + p.nodeTTL else e

def Present (p : ClusterProcess) (t : ℕ) : Prop := ∃ e ∈ p.expiry t, t < e

/-- **The entry of a Logic node stays**, if heartbeats are less than `NodeTTL` apart, and Redis can
be reached from one of them on. -/
theorem present_of_beat (hlogic : p.isLogic = true) (httl : heartbeatInterval < p.nodeTTL) {k : ℕ}
    (hreach : ∀ t, heartbeatInterval * (k + 1) ≤ t → p.reachable t = true)
    (hthere : ∃ e ∈ p.expiry (heartbeatInterval * (k + 1) - 1), heartbeatInterval * (k + 1) < e)
    (ht : heartbeatInterval * (k + 1) ≤ t) : p.Present t := by
  -- the entry lives for `NodeTTL` after the last heartbeat
  have hlast : ∃ e ∈ p.expiry t, t - t % heartbeatInterval + p.nodeTTL ≤ e := by
    induction t, ht using Nat.le_induction with
    | base =>
      obtain ⟨e, he, hlt⟩ := hthere
      obtain ⟨b, hb⟩ : ∃ b, heartbeatInterval * (k + 1) = b + 1 :=
        ⟨heartbeatInterval * (k + 1) - 1, by simp only [heartbeatInterval]; omega⟩
      have hwrites : p.Writes (b + 1) := .inl ⟨hlogic, hb ▸ Nat.dvd_mul_right ..⟩
      rw [hb, Nat.add_sub_cancel] at he
      rw [hb] at hlt hreach ⊢
      refine ⟨_, map_eq_some_iff.mpr ⟨e, he, if_pos ⟨hwrites, hreach _ le_rfl, hlt⟩⟩, ?_⟩
      omega
    | succ t ht ih =>
      obtain ⟨e, he, hle⟩ := ih
      refine ⟨_, map_eq_some_iff.mpr ⟨e, he, rfl⟩, ?_⟩
      split
      · omega
      next hnot =>
        have hbeat : heartbeatInterval ∣ t + 1 → e ≤ t + 1 := by
          refine fun hdvd => Nat.le_of_not_lt fun hlt => hnot ⟨.inl ⟨hlogic, hdvd⟩, ?_, hlt⟩
          exact hreach _ (ht.trans (Nat.le_succ t))
        simp only [heartbeatInterval] at hbeat hle httl ⊢
        omega
  obtain ⟨e, he, hle⟩ := hlast
  refine ⟨e, he, ?_⟩
  simp only [heartbeatInterval] at hle httl
  omega

theorem expiry_eq (hstart : p.reachable 0 = true)
    (h : ∀ u < t, p.Writes (u + 1) → p.reachable (u + 1) = true → p.nodeTTL ≤ u + 1) :
    p.expiry t = some p.nodeTTL := by
  induction t with
  | zero => rw [expiry, if_pos hstart]
  | succ t ih =>
    rw [expiry, ih fun u hu => h u (hu.trans (Nat.lt_succ_self t)), map_some, if_neg]
    exact fun hw => absurd (h t (Nat.lt_succ_self t) hw.1 hw.2.1) (Nat.not_le.mpr hw.2.2)

/-- A Logic node that can always reach Redis, with entries for 15 seconds. -/
def steadyLogic : ClusterProcess := ⟨true, 15000000000, fun _ => true, fun _ => false⟩

theorem present_of_beat_steady : steadyLogic.Present 3600000000000 := by
  have hexpiry : steadyLogic.expiry (heartbeatInterval - 1) = some 15000000000 := by
    refine expiry_eq rfl fun u hu hw => ?_
    obtain ⟨-, hdvd⟩ | hdrains := hw
    · simp only [heartbeatInterval] at hdvd hu
      omega
    · cases hdrains
  exact present_of_beat (k := 0) rfl (by decide) (fun _ _ => rfl) ⟨_, hexpiry, by decide⟩
    (by decide)

def steadyGateway : ClusterProcess := { steadyLogic with isLogic := false }

/-- A Logic node that registers and then cannot reach Redis for a minute. -/
def minuteOut : ClusterProcess :=
  { steadyLogic with reachable := fun t => t = 0 ∨ 60000000000 ≤ t }

theorem not_present : (∀ t ≥ 15000000000, ¬ steadyGateway.Present t) ∧
    ∀ t ≥ 15000000000, ¬ minuteOut.Present t := by
  have hgone : ∀ {p : ClusterProcess} {t}, p.expiry t = some 15000000000 → 15000000000 ≤ t →
      ¬ p.Present t := by
    rintro p t hexpiry ht ⟨e, he, hlt⟩
    obtain rfl := some.inj (hexpiry.symm.trans he)
    omega
  constructor <;> intro t ht <;> refine hgone (expiry_eq rfl fun u _ hw => ?_) ht
  · obtain ⟨hlogic, -⟩ | hdrains := hw
    · cases hlogic
    · cases hdrains
  · intro hr
    have hout : u + 1 = 0 ∨ 60000000000 ≤ u + 1 := of_decide_eq_true hr
    show 15000000000 ≤ u + 1
    omega

end ClusterProcess

end RanGame.Cluster
