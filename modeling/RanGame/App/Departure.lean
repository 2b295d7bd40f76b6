import RanGame.App.Split
import RanGame.Session.Index

/-!
# A client that leaves

The Gateway's `cleanupConn` closes the connection and sends nothing to the node: the session stays
online until the client comes back, and no sweep finds it. Both sides are composed here.
-/

namespace RanGame

open Machine Option

namespace Session

variable {n : ℕ} {C : Type*}

/-! ### Who is online -/

/-- The session that a call is about to mark released. -/
def Call.dooms : Call n C → Option (Fin n)
  | .kicking x | .taking x _ | .releasing x _ _ => some x
  | _ => none

theorem Call.dooms_of_idle {k : Call n C} (h : k.idle = true) : k.dooms = none := by
  cases k with
  | kicking x | taking x why | releasing x conn why => cases h
  | _ => rfl

namespace Manager

variable {ID : C → UInt64} {cfg : Config} {s s' : Manager n C}

/-- A reconnect sets its session online only while that is registered. -/
def Prompt (s : Manager n C) (a : ManagerAct n C) : Prop :=
  ∀ i, a = .goOnline i → ∀ r ∈ (s.calls i).pending, s.Registered r.sess

instance [DecidableEq C] (s : Manager n C) (a : ManagerAct n C) : Decidable (s.Prompt a) :=
  inferInstanceAs (Decidable (∀ i, a = .goOnline i → _))

/-- A session that is online is registered, or is about to be released. -/
def OnlineFiled (s : Manager n C) : Prop :=
  ∀ x, (s.sess x).st = .stateOnline → s.Registered x ∨ ∃ i, (s.calls i).dooms = some x

theorem onlineFiled_newManager (clock : ℤ) : (newManager n C clock).OnlineFiled := by
  intro x hx
  cases hx

theorem OnlineFiled.registered (h : s.OnlineFiled) (hidle : ∀ i, (s.calls i).idle = true)
    {x : Fin n} (hx : (s.sess x).st = .stateOnline) : s.Registered x := by
  rcases h x hx with hreg | ⟨i, hi⟩
  · exact hreg
  · rw [Call.dooms_of_idle (hidle i)] at hi
    cases hi

variable {i : Fin n} {k : Call n C}

theorem exists_dooms {x : Fin n} (hcalls : s'.calls = Function.update s.calls i k)
    (hk : (s.calls i).dooms = some x → k.dooms = some x) (h : ∃ j, (s.calls j).dooms = some x) :
    ∃ j, (s'.calls j).dooms = some x := by
  obtain ⟨j, hj⟩ := h
  refine ⟨j, ?_⟩
  rw [hcalls]
  by_cases hji : j = i
  · subst hji
    rw [Function.update_self]
    exact hk hj
  · rw [Function.update_of_ne hji]
    exact hj

theorem OnlineFiled.of_same (h : s.OnlineFiled) (hindex : s'.byUID = s.byUID)
    (huid : ∀ x, (s'.sess x).uid = (s.sess x).uid) (hcalls : s'.calls = Function.update s.calls i k)
    (hst : ∀ x, (s'.sess x).st = .stateOnline → s.Registered x ∨ (s.sess x).st = .stateOnline ∧
      ((s.calls i).dooms = some x → k.dooms = some x)) :
    s'.OnlineFiled := by
  intro x hx
  have hreg : s.Registered x → s'.Registered x := by
    intro hreg
    rwa [Registered, hindex, huid]
  rcases hst x hx with hx | ⟨hx, hk⟩
  · exact .inl (hreg hx)
  · exact (h x hx).imp hreg (exists_dooms hcalls hk)

theorem OnlineFiled.turn (h : s.OnlineFiled) (hindex : s'.byUID = s.byUID)
    (hsess : s'.sess = s.sess) (hcalls : s'.calls = Function.update s.calls i k)
    (hk : ∀ x, (s.calls i).dooms = some x → k.dooms = some x) : s'.OnlineFiled :=
  h.of_same hindex (fun x => by rw [hsess]) hcalls fun x hx => .inr ⟨by rwa [hsess] at hx, hk x⟩

theorem OnlineFiled.register (h : s.OnlineFiled) {uid : String} {c : C} {codec : UInt8}
    {token : String} (hi : s.calls i = .notStarted)
    (hk : ∀ x, s.byUID uid = some x → k.dooms = some x) :
    ((s.register ID i uid c codec token).setCall i k).OnlineFiled := by
  intro x hx
  by_cases hxi : x = i
  · subst hxi
    left
    simp [Registered, Sess.newSession]
  · have hsess : ((s.register ID i uid c codec token).setCall i k).sess x = s.sess x := by
      simp [Function.update_of_ne hxi]
    rw [hsess] at hx
    rcases h x hx with hreg | hdoom
    · by_cases hu : (s.sess x).uid = uid
      · right
        refine ⟨i, ?_⟩
        rw [setCall_calls, Function.update_self]
        exact hk x (hu ▸ hreg)
      · left
        rw [Registered, hsess]
        exact (PartialMap.insert_of_ne hu).trans hreg
    · exact .inr (exists_dooms rfl (by simp [hi, Call.dooms]) hdoom)

theorem OnlineFiled.remove (h : s.OnlineFiled) {y : Fin n} {todo : List (Fin n)} {why : Cause n}
    (hi : s.calls i = .destroying todo) (hy : s.Registered y) :
    ((s.removeFromMaps ID y).setCall i (.taking y why)).OnlineFiled := by
  intro x hx
  rcases h x hx with hreg | hdoom
  · by_cases hu : (s.sess x).uid = (s.sess y).uid
    · right
      obtain rfl : x = y := by
        rw [Registered, hu, hy] at hreg
        exact (some.inj hreg).symm
      exact ⟨i, by simp [Call.dooms]⟩
    · exact .inl ((PartialMap.erase_of_ne hu).trans hreg)
  · exact .inr (exists_dooms rfl (by simp [hi, Call.dooms]) hdoom)

variable [DecidableEq C]

/-- **Who is online is registered, or about to be released**, if reconnects are prompt. -/
theorem OnlineFiled.step (h : s.OnlineFiled) {a : ManagerAct n C} (ha : s.Prompt a)
    (hstep : s.step ID cfg a = some s') : s'.OnlineFiled := by
  cases happens_of_step hstep with
  | tick => exact h
  | create hi hold =>
    refine h.register hi fun x hx => ?_
    rw [hold] at hx
    cases hx
  | replace hi hold => exact h.register hi fun x hx => hold.symm.trans hx
  | remove hi hx hreg => exact h.remove hi hreg
  | @goOnline i r old hi =>
    refine h.of_same rfl (apply_update_of_eq Sess.uid (by rfl)) rfl fun x hx => ?_
    by_cases hxr : x = r.sess
    · left
      rw [hxr]
      exact ha i rfl r (by rw [hi]; rfl)
    · right
      exact ⟨by simpa [Function.update_of_ne hxr] using hx, by simp [hi, Call.dooms]⟩
  | @goOffline i y c old hi =>
    refine h.of_same rfl (apply_update_of_eq Sess.uid (by simp)) rfl fun x hx => .inr ?_
    by_cases hxy : x = y
    · subst hxy
      exact absurd (by simpa using hx) (Sess.goOffline_st_ne (s.sess x) s.clock)
    · exact ⟨by simpa [Function.update_of_ne hxy] using hx, by simp [hi, Call.dooms]⟩
  | @release i y conn why hi =>
    refine h.of_same rfl (apply_update_of_eq Sess.uid (by rfl)) rfl fun x hx => .inr ?_
    have hxy : x ≠ y := by
      rintro rfl
      simp [Sess.markReleased] at hx
    refine ⟨by simpa [Function.update_of_ne hxy] using hx, ?_⟩
    rw [hi]
    rintro ⟨⟩
    exact absurd rfl hxy
  | rotate hi | bind hi | clearOffline hi | unbind hi =>
    refine h.of_same rfl (apply_update_of_eq Sess.uid (by rfl)) rfl fun x hx => .inr ?_
    refine ⟨?_, by simp [hi, Call.dooms]⟩
    rw [← hx]
    exact (apply_update_of_eq Sess.st (by rfl) x).symm
  | unindex hi | find hi | miss hi | stale hi | reindex hi | closeOld hi | leave hi | dropConn hi
  | closeConn hi | sweep hi | examine hi | skip hi | takeConn hi | close hi | notify hi =>
    exact h.turn rfl rfl rfl (by simp [hi, Call.dooms])

end Manager

/-! ### A manager that is not told -/

/-- A call of `MarkOfflineConn` that has unbound a connection. -/
def Call.marksOffline : Call n C → Bool
  | .offlining _ _ _ | .dropping _ _ _ | .leaving _ _ _ => true
  | _ => false

/-- `Create` or `Reconnect` has returned a session. -/
def Call.succeeded : Call n C → Bool
  | .created | .reconnected _ _ => true
  | _ => false

def ManagerAct.isMarkOffline : ManagerAct n C → Bool
  | .markOfflineConn _ _ _ => true
  | _ => false

/-- The session is bound to its last connection, and has never been offline. -/
structure Sess.Untold (r : Sess C) : Prop where
  conn : r.conn = r.past.head?
  offlineAt : r.offlineAt = 0

namespace Sess.Untold

variable {r : Sess C}

theorem newSession (uid : String) (c : C) (codec : UInt8) (token : String) :
    (Sess.newSession uid c codec token).Untold := ⟨rfl, rfl⟩

theorem bind (h : r.Untold) (c : C) : (r.bind c).Untold := ⟨rfl, h.offlineAt⟩

theorem goOnline (h : r.Untold) (codec : UInt8) : (r.goOnline codec).Untold := ⟨h.conn, h.offlineAt⟩

theorem clearOffline (h : r.Untold) : r.clearOffline.Untold := ⟨h.conn, rfl⟩

theorem markReleased (h : r.Untold) : r.markReleased.Untold := ⟨h.conn, h.offlineAt⟩

theorem setToken (h : r.Untold) (token : String) : ({ r with token := token } : Sess C).Untold :=
  ⟨h.conn, h.offlineAt⟩

end Sess.Untold

namespace Manager

variable {ID : C → UInt64} {cfg : Config} {s s' : Manager n C}

/-- Nobody has told the manager that a connection has closed. -/
structure Untold (s : Manager n C) : Prop where
  sess : ∀ x, (s.sess x).Untold
  calls : ∀ i, (s.calls i).marksOffline = false

theorem untold_newManager (clock : ℤ) : (newManager n C clock).Untold where
  sess := fun _ => ⟨rfl, rfl⟩
  calls := fun _ => rfl

variable {i : Fin n} {k : Call n C}

theorem Untold.of_call (h : s.Untold) (hi : s.calls i = k) : k.marksOffline = false := by
  rw [← hi]
  exact h.calls i

theorem Untold.update (h : s.Untold) {x : Fin n} {r : Sess C} (hr : r.Untold)
    (hk : k.marksOffline = false) (hsess : s'.sess = Function.update s.sess x r)
    (hcalls : s'.calls = Function.update s.calls i k) : s'.Untold where
  sess := by
    rw [hsess]
    exact (Function.forall_update_iff s.sess fun _ r => r.Untold).mpr ⟨hr, fun y _ => h.sess y⟩
  calls := by
    rw [hcalls]
    exact (Function.forall_update_iff s.calls fun _ k => k.marksOffline = false).mpr
      ⟨hk, fun j _ => h.calls j⟩

theorem Untold.turn (h : s.Untold) (hk : k.marksOffline = false) (hsess : s'.sess = s.sess)
    (hcalls : s'.calls = Function.update s.calls i k) : s'.Untold :=
  h.update (h.sess i) hk (by rw [hsess, Function.update_eq_self]) hcalls

theorem Untold.candidates (h : s.Untold) (now : ℤ) : s.candidates cfg now = [] := by
  refine List.filter_eq_nil_iff.mpr fun x _ hx => ?_
  obtain ⟨-, -, hgrace⟩ := of_decide_eq_true hx
  rw [Sess.offlineDuration, if_pos (h.sess x).offlineAt] at hgrace
  exact absurd hgrace (Int.not_le.mpr cfg.gracePeriod_pos)

variable [DecidableEq C]

/-- **A manager that is not told of closed connections** keeps its sessions bound. -/
theorem Untold.step (h : s.Untold) {a : ManagerAct n C} (ha : a.isMarkOffline = false)
    (hstep : s.step ID cfg a = some s') : s'.Untold := by
  cases happens_of_step hstep with
  | tick => exact ⟨h.sess, h.calls⟩
  | create | replace => exact h.update (.newSession ..) rfl rfl rfl
  | rotate => exact h.update ((h.sess _).setToken _) rfl rfl rfl
  | bind => exact h.update ((h.sess _).bind _) rfl rfl rfl
  | goOnline => exact h.update ((h.sess _).goOnline _) rfl rfl rfl
  | clearOffline => exact h.update (h.sess _).clearOffline rfl rfl rfl
  | release => exact h.update (h.sess _).markReleased rfl rfl rfl
  | unbind | leave => cases ha
  | goOffline hi | dropConn hi | closeConn hi => cases h.of_call hi
  | @notify i x why hi =>
    refine h.turn ?_ rfl rfl
    cases why <;> rfl
  | _ => exact h.turn rfl rfl rfl

end Manager

end Session

namespace App

open Session (Config Manager ManagerAct newManager)

/-! ### Nodes and their Gateway -/

/-- A `RemoteConn`, made for a request of this Gateway or of another one. -/
inductive Remote
  | here (n : ℕ)
  | elsewhere (r : ℕ)
  deriving DecidableEq

def Remote.isElsewhere : Remote → Bool
  | .here _ => false
  | .elsewhere _ => true

/-- What a manager does apart from requests of this Gateway. `LogicHandler` marks nothing offline.
-/
def isNodeAct {k : ℕ} : ManagerAct k Remote → Bool
  | .create _ _ c _ _ | .reconnect _ _ c _ => c.isElsewhere
  | .markOfflineConn _ _ _ => false
  | _ => true

/-- A Gateway and the session managers of the Logic nodes. -/
structure Deployment (k : ℕ) (D : Type*) where
  gw : GatewayConnector D
  mgr : String → Manager k Remote
  /-- The call that a node has made for a request. -/
  handled : ℕ → Option (Fin k)

def newDeployment (k : ℕ) (D : Type*) (clock : ℤ) : Deployment k D where
  gw := newGatewayConnector D
  mgr := fun _ => newManager k Remote clock
  handled := fun _ => none

inductive DeployAct (k : ℕ) (D : Type*)
  /-- A client, the Gateway or a link; or a node answers, or sends a frame. -/
  | gateway (a : GwAct D)
  /-- `handleLogin`: call `i` of `Create` -/
  | login (n : ℕ) (i : Fin k) (codec : UInt8) (token : String)
  /-- `handleReconnect`: call `i` of `Reconnect` -/
  | reconnect (n : ℕ) (i : Fin k) (codec : UInt8)
  | manager (node : String) (a : ManagerAct k Remote)

/-- No request or frame is lost in this step. -/
def DeployAct.isReliable {k : ℕ} {D : Type*} : DeployAct k D → Bool
  | .gateway (.loseUp _) | .gateway (.loseDown _) => false
  | _ => true

namespace Deployment

variable {k : ℕ} {D : Type*} (ID : Remote → UInt64) (cfg : Config) (s : Deployment k D)

def node (n : ℕ) : String := (s.gw.reqs n).node

def succeeded (n : ℕ) : Bool :=
  match s.handled n with
  | some i => ((s.mgr (s.node n)).calls i).succeeded
  | none => false

/-- A node answers with success only if there is a session. -/
def MayAnswer : GwAct D → Prop
  | .answer n ok _ => ok = true → s.succeeded n = true
  | _ => True

instance (a : GwAct D) : Decidable (s.MayAnswer a) := by
  induction a using GwAct.casesOn <;> unfold MayAnswer <;> infer_instance

def stepAt (node : String) (a : ManagerAct k Remote) : Option (Deployment k D) :=
  ((s.mgr node).step ID cfg a).map fun m => { s with mgr := Function.update s.mgr node m }

def handle (n : ℕ) (i : Fin k) (a : ManagerAct k Remote) : Option (Deployment k D) :=
  if n ∈ s.gw.up ∧ s.handled n = none then
    (s.stepAt ID cfg (s.node n) a).map fun s =>
      { s with handled := Function.update s.handled n (some i) }
  else none

/-- `Create`, for a login request -/
def createAct (n : ℕ) (i : Fin k) (codec : UInt8) (token : String) : ManagerAct k Remote :=
  .create i (s.gw.reqs n).uid (.here n) codec token

/-- `Reconnect`, for a reconnect request with this token -/
def reconnectAct (n : ℕ) (i : Fin k) (codec : UInt8) (token : String) : ManagerAct k Remote :=
  .reconnect i (stripNodeIDPrefix token (s.node n)) (.here n) codec

def step (s : Deployment k D) : DeployAct k D → Option (Deployment k D)
  | .gateway a =>
    if s.MayAnswer a then (s.gw.step a).map fun g => { s with gw := g } else none
  | .login n i codec token =>
    match (s.gw.reqs n).kind with
    | .login => s.handle ID cfg n i (s.createAct n i codec token)
    | .reconnect _ _ _ => none
  | .reconnect n i codec =>
    match (s.gw.reqs n).kind with
    | .login => none
    | .reconnect token _ _ => s.handle ID cfg n i (s.reconnectAct n i codec token)
  | .manager node a => if isNodeAct a then s.stepAt ID cfg node a else none

/-- The manager that takes a step, and the step. -/
def turn : DeployAct k D → Option (String × ManagerAct k Remote)
  | .gateway _ => none
  | .login n i codec token => some (s.node n, s.createAct n i codec token)
  | .reconnect n i codec =>
    match (s.gw.reqs n).kind with
    | .login => none
    | .reconnect token _ _ => some (s.node n, s.reconnectAct n i codec token)
  | .manager node a => some (node, a)

section Run

variable {ID cfg s} {s' : Deployment k D}

theorem mgr_of_handle {n : ℕ} {i : Fin k} {b : ManagerAct k Remote}
    (hstep : s.handle ID cfg n i b = some s') :
    ∃ m, (s.mgr (s.node n)).step ID cfg b = some m ∧
      s'.mgr = Function.update s.mgr (s.node n) m := by
  obtain ⟨-, hstep⟩ := ite_none_right_eq_some.mp hstep
  obtain ⟨t, ht, rfl⟩ := map_eq_some_iff.mp hstep
  obtain ⟨m, hm, rfl⟩ := map_eq_some_iff.mp ht
  exact ⟨m, hm, rfl⟩

/-- **What a step does to the managers**: one takes a step, and none is told of a closed connection.
-/
theorem mgr_of_step {a : DeployAct k D} (hstep : s.step ID cfg a = some s') :
    s'.mgr = s.mgr ∨ ∃ node b m, s.turn a = some (node, b) ∧ b.isMarkOffline = false ∧
      (s.mgr node).step ID cfg b = some m ∧ s'.mgr = Function.update s.mgr node m := by
  cases a with
  | gateway a =>
    left
    obtain ⟨-, hstep⟩ := ite_none_right_eq_some.mp hstep
    obtain ⟨g, -, rfl⟩ := map_eq_some_iff.mp hstep
    rfl
  | login n i codec token =>
    right
    simp only [step] at hstep
    split at hstep
    · obtain ⟨m, hm, hmgr⟩ := mgr_of_handle hstep
      exact ⟨_, _, m, rfl, rfl, hm, hmgr⟩
    · cases hstep
  | reconnect n i codec =>
    right
    simp only [step] at hstep
    split at hstep
    · cases hstep
    next token seq broadcast hkind =>
      obtain ⟨m, hm, hmgr⟩ := mgr_of_handle hstep
      exact ⟨_, _, m, by simp only [turn, hkind], rfl, hm, hmgr⟩
  | manager node b =>
    right
    obtain ⟨hb, hstep⟩ := ite_none_right_eq_some.mp hstep
    obtain ⟨m, hm, rfl⟩ := map_eq_some_iff.mp hstep
    refine ⟨node, b, m, rfl, ?_, hm, rfl⟩
    cases b with
    | markOfflineConn => cases hb
    | _ => rfl

theorem forall_mgr_of_step {P : String → Manager k Remote → Prop} {a : DeployAct k D}
    (hstep : s.step ID cfg a = some s') (h : ∀ node, P node (s.mgr node))
    (hP : ∀ node b m, s.turn a = some (node, b) → b.isMarkOffline = false →
      (s.mgr node).step ID cfg b = some m → P node m) : ∀ node, P node (s'.mgr node) := by
  rcases mgr_of_step hstep with hmgr | ⟨node, b, m, hturn, hb, hm, hmgr⟩
  · rw [hmgr]
    exact h
  · rw [hmgr]
    exact (Function.forall_update_iff s.mgr P).mpr ⟨hP node b m hturn hb hm, fun node' _ => h node'⟩

/-! ### Sessions stay bound -/

variable {clock : ℤ} {acts : List (DeployAct k D)}

theorem untold_of_run (hrun : run (step ID cfg) (newDeployment k D clock) acts = some s) :
    ∀ node, (s.mgr node).Untold := by
  refine invariant_of_run (I := fun s => ∀ node, (s.mgr node).Untold)
    (G := fun _ _ => True) ?_ (fun _ => Manager.untold_newManager clock) along_true hrun
  intro s a s' h _ hstep
  exact forall_mgr_of_step hstep h fun node b m _ hb hm => (h node).step hb hm

/-- **No sweep ever has a candidate**, so the grace period never ends. -/
theorem candidates_eq_nil
    (hrun : run (step ID cfg) (newDeployment k D clock) acts = some s) (node : String)
    (now : ℤ) : (s.mgr node).candidates cfg now = [] :=
  (untold_of_run hrun node).candidates now

def Prompt (s : Deployment k D) (a : DeployAct k D) : Prop := ∀ p ∈ s.turn a, (s.mgr p.1).Prompt p.2

instance (s : Deployment k D) (a : DeployAct k D) : Decidable (s.Prompt a) :=
  inferInstanceAs (Decidable (∀ _, _))

theorem onlineFiled_of_run (hrun : run (step ID cfg) (newDeployment k D clock) acts = some s)
    (hprompt : Along (step ID cfg) Prompt (newDeployment k D clock) acts) :
    ∀ node, (s.mgr node).OnlineFiled := by
  refine invariant_of_run (I := fun s => ∀ node, (s.mgr node).OnlineFiled) ?_
    (fun _ => Manager.onlineFiled_newManager clock) hprompt hrun
  intro s a s' h ha hstep
  exact forall_mgr_of_step hstep h fun node b m hturn _ hm => (h node).step (ha _ hturn) hm

/-- Only the manager of `node` takes steps. -/
def OnlyAt (node : String) (s : Deployment k D) (a : DeployAct k D) : Prop :=
  ∀ p ∈ s.turn a, p.1 = node

instance (node : String) (s : Deployment k D) (a : DeployAct k D) : Decidable (s.OnlyAt node a) :=
  inferInstanceAs (Decidable (∀ _, _))

theorem mgr_eq_of_run {node : String}
    (hrun : run (step ID cfg) (newDeployment k D clock) acts = some s)
    (hat : Along (step ID cfg) (OnlyAt node) (newDeployment k D clock) acts) :
    ∀ node', node' ≠ node → s.mgr node' = newManager k Remote clock := by
  refine invariant_of_run
    (I := fun s => ∀ node', node' ≠ node → s.mgr node' = newManager k Remote clock) ?_
    (fun _ _ => rfl) hat hrun
  intro s a s' h ha hstep
  refine forall_mgr_of_step (P := fun node' m => node' ≠ node → m = newManager k Remote clock)
    hstep h ?_
  intro node' b m hturn _ _ hne
  exact absurd (ha _ hturn) hne

end Run

/-! ### The client leaves -/

/-- The `RemoteConn` was made for a request of connection `c`. -/
def ComesFrom (c : Conn) : Remote → Prop
  | .here n => (s.gw.reqs n).conn = c
  | .elsewhere _ => False

instance (c : Conn) (r : Remote) : Decidable (s.ComesFrom c r) := by
  cases r <;> unfold ComesFrom <;> infer_instance

/-- Session `x` is online, and bound to a `RemoteConn` of connection `c`. -/
def OnlineThrough (c : Conn) (node : String) (x : Fin k) : Prop :=
  ((s.mgr node).sess x).st = .stateOnline ∧ ∃ r ∈ ((s.mgr node).sess x).conn, s.ComesFrom c r

instance (c : Conn) (node : String) (x : Fin k) : Decidable (s.OnlineThrough c node x) :=
  inferInstanceAs (Decidable (_ ∧ _))

/-- Connection `c` has been closed, and nothing is in flight any more. -/
structure Settled (c : Conn) : Prop where
  closed : (s.gw.conn c).serving = .closed
  links : s.gw.up = [] ∧ s.gw.down = [] ∧ s.gw.handling = []
  calls : ∀ node i, ((s.mgr node).calls i).idle = true

/-- Where a session was bound to `c` last, its user has logged in again since. -/
def SupersededIn (c : Conn) (m : Manager k Remote) : Prop :=
  ∀ x, ∀ r ∈ (m.sess x).past.head?, s.ComesFrom c r → ∃ y, y ≠ x ∧ m.byUID (m.sess x).uid = some y

instance (c : Conn) (m : Manager k Remote) : Decidable (s.SupersededIn c m) :=
  inferInstanceAs (Decidable (∀ _, _))

def Superseded (c : Conn) : Prop := ∀ node, s.SupersededIn c (s.mgr node)

variable {ID cfg s}

/-- **A client that has come back leaves nothing behind**: no session is online and bound to a
closed connection, if it has been bound again, or its user has logged in again. -/
theorem departed_not_online {clock : ℤ} {acts : List (DeployAct k D)}
    (hrun : run (step ID cfg) (newDeployment k D clock) acts = some s)
    (hprompt : Along (step ID cfg) Prompt (newDeployment k D clock) acts) {c : Conn}
    (hsettled : s.Settled c) (hsuper : s.Superseded c) (node : String) (x : Fin k) :
    ¬ s.OnlineThrough c node x := by
  rintro ⟨honline, r, hr, hc⟩
  have hlast : ((s.mgr node).sess x).past.head? = some r := by
    rw [← ((untold_of_run hrun node).sess x).conn]
    exact hr
  obtain ⟨y, hy, hother⟩ := hsuper node x r hlast hc
  have hreg := (onlineFiled_of_run hrun hprompt node).registered (hsettled.calls node) honline
  exact hy (some.inj (hother.symm.trans hreg))

/-- Alice logs in on connection `c`, by request `n`, and `Create` goes through these sections. -/
def loginActs (c : Conn) (n : ℕ) (i : Fin 4) (token : String)
    (sections : List (ManagerAct 4 Remote)) : List (DeployAct 4 Unit) :=
  [DeployAct.gateway (.accept .tcp), .gateway (.login c "alice" (some "n1")),
    .gateway (.request c none), .login n i 0 token] ++ sections.map (.manager "n1") ++
  [DeployAct.gateway (.answer n true []), .gateway (.load 0), .gateway (.deliver 0), .gateway (.wake c true)]

def leaveActs (c : Conn) : List (DeployAct 4 Unit) :=
  [.gateway (.disconnect c), .gateway (.cleanup c)]

def remoteID : Remote → UInt64
  | .here n => UInt64.ofNat (2 * n + 1)
  | .elsewhere r => UInt64.ofNat (2 * r + 2)

/-- Alice logs in, leaves and logs in again on a second connection. -/
def againActs : List (DeployAct 4 Unit) :=
  loginActs ⟨.tcp, 1⟩ 0 0 "t0" [] ++ leaveActs ⟨.tcp, 1⟩ ++
    loginActs ⟨.tcp, 2⟩ 1 1 "t1" [.unindex 1, .takeConn 1, .release 1, .close 1, .notify 1]

variable {acts : List (DeployAct k D)}

theorem Settled.of_onlyAt {clock : ℤ} {node : String}
    (hrun : run (step ID cfg) (newDeployment k D clock) acts = some s)
    (hat : Along (step ID cfg) (OnlyAt node) (newDeployment k D clock) acts) {c : Conn}
    (hclosed : (s.gw.conn c).serving = .closed)
    (hlinks : s.gw.up = [] ∧ s.gw.down = [] ∧ s.gw.handling = [])
    (hcalls : ∀ i, ((s.mgr node).calls i).idle = true) : s.Settled c where
  closed := hclosed
  links := hlinks
  calls := by
    intro node' i
    by_cases hnode : node' = node
    · rw [hnode]
      exact hcalls i
    · rw [mgr_eq_of_run hrun hat node' hnode]
      rfl

theorem Superseded.of_onlyAt {clock : ℤ} {node : String}
    (hrun : run (step ID cfg) (newDeployment k D clock) acts = some s)
    (hat : Along (step ID cfg) (OnlyAt node) (newDeployment k D clock) acts) {c : Conn}
    (h : s.SupersededIn c (s.mgr node)) : s.Superseded c := by
  intro node'
  by_cases hnode : node' = node
  · rw [hnode]
    exact h
  · rw [mgr_eq_of_run hrun hat node' hnode]
    intro x r hr
    cases hr

theorem departed_not_online_again : ∃ s,
    run (step remoteID (.withDefaults 60)) (newDeployment 4 Unit 100) againActs = some s ∧
      s.Settled ⟨.tcp, 1⟩ ∧ s.Superseded ⟨.tcp, 1⟩ ∧
      (∀ node x, ¬ s.OnlineThrough ⟨.tcp, 1⟩ node x) ∧ s.OnlineThrough ⟨.tcp, 2⟩ "n1" 1 := by
  obtain ⟨s, hrun, hclosed, hlinks, hcalls, hsuper, hthrough⟩ := exists_of_run
    (step remoteID (.withDefaults 60)) (newDeployment 4 Unit 100) againActs
    (fun s => (s.gw.conn ⟨.tcp, 1⟩).serving = .closed ∧
      (s.gw.up = [] ∧ s.gw.down = [] ∧ s.gw.handling = []) ∧
      (∀ i, ((s.mgr "n1").calls i).idle = true) ∧ s.SupersededIn ⟨.tcp, 1⟩ (s.mgr "n1") ∧
      s.OnlineThrough ⟨.tcp, 2⟩ "n1" 1)
    (by decide +kernel)
  have hat : Along (step remoteID (.withDefaults 60)) (OnlyAt "n1")
      (newDeployment 4 Unit 100) againActs := by decide +kernel
  have hsettled := Settled.of_onlyAt hrun hat hclosed hlinks hcalls
  have hsuper := Superseded.of_onlyAt hrun hat hsuper
  refine ⟨s, hrun, hsettled, hsuper, ?_, hthrough⟩
  exact departed_not_online hrun (by decide +kernel) hsettled hsuper

/-- Alice logs in and leaves, and a sweep is made long after the grace period. -/
def goneActs : List (DeployAct 4 Unit) :=
  loginActs ⟨.tcp, 1⟩ 0 0 "t0" [] ++ leaveActs ⟨.tcp, 1⟩ ++
    [.manager "n1" (.tick 6000), .manager "n1" (.sweep 1), .manager "n1" (.examine 1)]

theorem candidates_eq_nil_gone : ∃ s,
    run (step remoteID (.withDefaults 60)) (newDeployment 4 Unit 100) goneActs = some s ∧
      (s.mgr "n1").clock = 6100 ∧ (s.mgr "n1").candidates (.withDefaults 60) 6100 = [] :=
  exists_of_run_and (by decide +kernel) fun _ hrun _ => candidates_eq_nil hrun "n1" 6100

/-- Alice's connection is closed, but the session is online and bound to it, and the sweep finds
nobody; a manager that is told has a candidate. -/
theorem departed_stays_online : (∀ a ∈ goneActs, a.isReliable = true) ∧
    Along (step remoteID (.withDefaults 60)) Prompt (newDeployment 4 Unit 100) goneActs ∧
    (∃ s, run (step remoteID (.withDefaults 60)) (newDeployment 4 Unit 100) goneActs = some s ∧
      s.Settled ⟨.tcp, 1⟩ ∧ s.OnlineThrough ⟨.tcp, 1⟩ "n1" 0 ∧ (s.mgr "n1").clock = 6100 ∧
      (s.mgr "n1").candidates (.withDefaults 60) 6100 = []) ∧
    ∃ m, run (Manager.step remoteID (.withDefaults 60)) (newManager 4 Remote 100)
        [.create 0 "alice" (.here 0) 0 "t0", .markOfflineConn 1 0 (.here 0), .goOffline 1,
          .dropConn 1, .closeConn 1, .tick 6000] = some m ∧
      m.candidates (.withDefaults 60) 6100 = [0] := by
  refine ⟨by decide, by decide +kernel, ?_, ?_⟩
  · obtain ⟨s, hrun, hclosed, hlinks, hcalls, hend⟩ := exists_of_run
      (step remoteID (.withDefaults 60)) (newDeployment 4 Unit 100) goneActs
      (fun s => (s.gw.conn ⟨.tcp, 1⟩).serving = .closed ∧
        (s.gw.up = [] ∧ s.gw.down = [] ∧ s.gw.handling = []) ∧
        (∀ i, ((s.mgr "n1").calls i).idle = true) ∧ s.OnlineThrough ⟨.tcp, 1⟩ "n1" 0 ∧
        (s.mgr "n1").clock = 6100 ∧ (s.mgr "n1").candidates (.withDefaults 60) 6100 = [])
      (by decide +kernel)
    exact ⟨s, hrun, .of_onlyAt hrun (by decide +kernel) hclosed hlinks hcalls, hend⟩
  · exact exists_of_run _ _ _ _ (by decide +kernel)

end Deployment

end App

end RanGame
