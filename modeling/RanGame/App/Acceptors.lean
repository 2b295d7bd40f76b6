import RanGame.Session.Binding
import RanGame.Session.Pumps

/-!
# Two acceptors, two counters

Each acceptor (`internal/transport/acceptor_tcp.go`, `acceptor_ws.go`) numbers its connections from
one, and the session manager knows them by their number only. After a reconnect over the other
transport with the same number, the exit of the old pump closes the new connection.
-/

namespace RanGame.App

open Function Machine Session

inductive Acceptor
  | tcp
  | ws
  deriving DecidableEq

/-- A connection: the `seq`-th that its acceptor has accepted. -/
structure Conn where
  acceptor : Acceptor
  seq : ℕ
  deriving DecidableEq

def Conn.ID (c : Conn) : UInt64 := UInt64.ofNat c.seq

theorem Conn.eq_of_ID_eq {c d : Conn} (hacc : c.acceptor = d.acceptor) (hc : c.seq < 2 ^ 64)
    (hd : d.seq < 2 ^ 64) (hID : c.ID = d.ID) : c = d := by
  have hseq : c.seq = d.seq := by
    have := congrArg UInt64.toNat hID
    rwa [Conn.ID, Conn.ID, UInt64.toNat_ofNat_of_lt' hc, UInt64.toNat_ofNat_of_lt' hd] at this
  cases c
  cases d
  simp_all

structure Ingress (n : ℕ) where
  nextID : Acceptor → ℕ
  sessions : Manager n Conn

/-- A connection is accepted, or the manager takes a step for one. -/
inductive IngressAct (n : ℕ)
  | accept (a : Acceptor)
  | act (a : ManagerAct n Conn)

namespace Ingress

variable {n : ℕ}

def Accepted (h : Ingress n) (c : Conn) : Prop := 0 < c.seq ∧ c.seq ≤ h.nextID c.acceptor

/-- Logins and reconnects come over accepted connections, and a pump exits on a session that was
bound to its connection. -/
def Serves (h : Ingress n) : ManagerAct n Conn → Prop
  | .create _ _ c _ _ | .reconnect _ _ c _ => h.Accepted c
  | .markOfflineConn _ x c => c ∈ (h.sessions.sess x).past
  | _ => True

instance (h : Ingress n) (c : Conn) : Decidable (h.Accepted c) :=
  inferInstanceAs (Decidable (_ ∧ _))

instance (h : Ingress n) (a : ManagerAct n Conn) : Decidable (h.Serves a) := by
  cases a <;> unfold Serves <;> infer_instance

def step (cfg : Config) (h : Ingress n) : IngressAct n → Option (Ingress n)
  | .accept a => some { h with nextID := update h.nextID a (h.nextID a + 1) }
  | .act a =>
    if h.Serves a then
      (h.sessions.step Conn.ID cfg a).map fun sessions => { h with sessions := sessions }
    else none

end Ingress

def newIngress (n : ℕ) (clock : ℤ) : Ingress n where
  nextID := fun _ => 0
  sessions := newManager n Conn clock

namespace Ingress

variable {n : ℕ} {cfg : Config} {h h' : Ingress n}

/-- An acceptor has IDs left, no session is bound to connections of both with one ID, and a session
that is marked offline has not been bound again. -/
def Distinct (h : Ingress n) : IngressAct n → Prop
  | .accept a => h.nextID a + 1 < 2 ^ 64
  | .act (.bind i) => ∀ c ∈ (h.sessions.calls i).carries, ∀ x ∈ (h.sessions.calls i).subject,
      ∀ d ∈ (h.sessions.sess x).past, d.acceptor ≠ c.acceptor → d.ID ≠ c.ID
  | .act (.goOffline i) => ∀ x ∈ (h.sessions.calls i).unbinds, (h.sessions.sess x).conn = none
  | _ => True

instance (h : Ingress n) (a : IngressAct n) : Decidable (h.Distinct a) := by
  rcases a with _ | a
  · unfold Distinct
    infer_instance
  · cases a <;> unfold Distinct <;> infer_instance

theorem sessions_of_step {a : ManagerAct n Conn} (hstep : h.step cfg (.act a) = some h') :
    h.Serves a ∧ h.sessions.step Conn.ID cfg a = some h'.sessions ∧ h'.nextID = h.nextID := by
  obtain ⟨hserves, hstep⟩ := Option.ite_none_right_eq_some.mp hstep
  obtain ⟨m, hm, rfl⟩ := Option.map_eq_some_iff.mp hstep
  exact ⟨hserves, hm, rfl⟩

/-- What holds of the connections the server knows. -/
structure Sound (h : Ingress n) : Prop where
  known : h.sessions.Known
  linked : h.sessions.Linked Conn.ID
  accepted : h.sessions.Carries h.Accepted
  bounded : ∀ a, h.nextID a < 2 ^ 64

theorem sound_newIngress (clock : ℤ) : (newIngress n clock).Sound where
  known := Manager.known_newManager clock
  linked := Manager.linked_newManager clock
  accepted := Manager.carries_newManager _ clock
  bounded := fun _ => by simp [newIngress]

theorem Sound.eq_of_ID_eq (hs : h.Sound) {c d : Conn} (hc : h.Accepted c) (hd : h.Accepted d)
    (hacc : c.acceptor = d.acceptor) (hID : c.ID = d.ID) : c = d :=
  Conn.eq_of_ID_eq hacc (hc.2.trans_lt (hs.bounded _)) (hd.2.trans_lt (hs.bounded _)) hID

theorem apart_of_distinct (hs : h.Sound) {a : ManagerAct n Conn} (hserves : h.Serves a)
    (ha : h.Distinct (.act a)) : h.sessions.Apart Conn.ID a := by
  rcases a
  case bind i =>
    intro r hi d hd hID
    by_contra hne
    have hc : h.Accepted r.conn := hs.accepted.calls i r.conn (by rw [hi]; rfl)
    have hacc : d.acceptor ≠ r.conn.acceptor := fun hacc =>
      hne (hs.eq_of_ID_eq (hs.accepted.past _ d hd) hc hacc hID)
    exact ha r.conn (by rw [hi]; rfl) r.sess (by rw [hi]; rfl) d hd hacc hID
  case markOfflineConn => exact hserves
  all_goals trivial

theorem Sound.step (hs : h.Sound) {a : IngressAct n} (ha : h.Distinct a)
    (hstep : h.step cfg a = some h') : h'.Sound := by
  rcases a with a | a
  · cases hstep
    have hmono : ∀ c, h.Accepted c → Accepted { h with
        nextID := update h.nextID a (h.nextID a + 1) } c := by
      rintro c ⟨hpos, hle⟩
      refine ⟨hpos, ?_⟩
      by_cases hc : c.acceptor = a
      · simpa [hc] using (hc ▸ hle).trans (Nat.le_succ _)
      · simpa [update_of_ne hc] using hle
    refine ⟨hs.known, hs.linked, ?_, ?_⟩
    · exact ⟨fun x c hc => hmono c (hs.accepted.past x c hc),
        fun i c hc => hmono c (hs.accepted.calls i c hc)⟩
    · exact (forall_update_iff h.nextID fun _ m => m < 2 ^ 64).mpr ⟨ha, fun b _ => hs.bounded b⟩
  · obtain ⟨hserves, hm, hnext⟩ := sessions_of_step hstep
    have hsame : h'.Accepted = h.Accepted := by
      funext c
      rw [Accepted, Accepted, hnext]
    refine ⟨hs.known.step hm, hs.linked.step hs.known (apart_of_distinct hs hserves ha) hm, ?_, ?_⟩
    · rw [hsame]
      refine hs.accepted.step ?_ hm
      intro c hc
      cases a <;> cases hc <;> exact hserves
    · rw [hnext]
      exact hs.bounded

variable {acts : List (IngressAct n)} {clock : ℤ}

/-- **The exit of a pump leaves sessions bound to other connections alone, and a reconnect closes
the connection it replaces**, unless it came over that one. -/
theorem exit_keeps_others (hrun : run (step cfg) (newIngress n clock) acts = some h)
    (hdist : Along (step cfg) Distinct (newIngress n clock) acts) :
    (∀ (a : ManagerAct n Conn) (h' : Ingress n) (c : Conn), h.Distinct (.act a) →
      h.step cfg (.act a) = some h' → h.sessions.exitOf a = some c →
      ∀ y d, (h.sessions.sess y).conn = some d → d ≠ c → (h'.sessions.sess y).conn = some d ∧
          (h'.sessions.sess y).st = (h.sessions.sess y).st ∧
          h'.sessions.closed d = h.sessions.closed d) ∧
    ∀ i r d, h.sessions.calls i = .reconnected r (some d) → d ≠ r.conn →
      h.sessions.closed d = true := by
  have hs : h.Sound :=
    invariant_of_run (fun _ _ _ hs ha hstep => hs.step ha hstep) (sound_newIngress clock) hdist hrun
  refine ⟨?_, hs.linked.closed⟩
  intro a h' c ha hstep hexit y d hy hd
  obtain ⟨hserves, hm, -⟩ := sessions_of_step hstep
  refine hs.linked.exit_leaves hexit (apart_of_distinct hs hserves ha) ?_ hm hy hd
  rintro i x c old rfl hi
  exact ha x (by rw [hi]; rfl)

/-- Alice logs in over the first TCP connection and reconnects over the second. -/
def sameTransportActs : List (IngressAct 3) :=
  [.accept .tcp, .act (.create 0 "alice" ⟨.tcp, 1⟩ 0 "t0"), .accept .tcp,
    .act (.reconnect 1 "t0" ⟨.tcp, 2⟩ 0), .act (.rotate 1 "t1"), .act (.bind 1),
    .act (.goOnline 1), .act (.clearOffline 1), .act (.reindex 1), .act (.closeOld 1)]

theorem exit_keeps_others_sameTransport : ∃ h h',
    run (step (Config.withDefaults 60)) (newIngress 3 100) sameTransportActs = some h ∧
      h.step (Config.withDefaults 60) (.act (.markOfflineConn 2 0 ⟨.tcp, 1⟩)) = some h' ∧
      (h'.sessions.sess 0).conn = some ⟨.tcp, 2⟩ ∧ h.sessions.closed ⟨.tcp, 1⟩ = true := by
  obtain ⟨h, hrun, hconn, hdone, h', hstep⟩ : ∃ h,
      run (step (Config.withDefaults 60)) (newIngress 3 100) sameTransportActs = some h ∧
        (h.sessions.sess 0).conn = some ⟨.tcp, 2⟩ ∧
        h.sessions.calls 1 = .reconnected ⟨0, "t0", "t1", ⟨.tcp, 2⟩, 0⟩ (some ⟨.tcp, 1⟩) ∧
        ∃ h', h.step (Config.withDefaults 60) (.act (.markOfflineConn 2 0 ⟨.tcp, 1⟩)) = some h' :=
    ⟨_, rfl, rfl, rfl, _, rfl⟩
  obtain ⟨hkeep, hclosed⟩ := exit_keeps_others hrun (by decide)
  have hkept := hkeep (.markOfflineConn 2 0 ⟨.tcp, 1⟩) h' ⟨.tcp, 1⟩ trivial hstep rfl 0 _ hconn
    (by decide)
  exact ⟨h, h', hrun, hstep, hkept.1, hclosed 1 _ _ hdone (by decide)⟩

/-- Alice logs in over TCP and reconnects over WebSocket, each time over the first connection. -/
def otherTransportActs : List (IngressAct 3) :=
  [.accept .tcp, .act (.create 0 "alice" ⟨.tcp, 1⟩ 0 "t0"), .accept .ws,
    .act (.reconnect 1 "t0" ⟨.ws, 1⟩ 0), .act (.rotate 1 "t1"), .act (.bind 1),
    .act (.goOnline 1), .act (.clearOffline 1), .act (.reindex 1), .act (.closeOld 1)]

def tcpExitActs : List (IngressAct 3) :=
  [.act (.markOfflineConn 2 0 ⟨.tcp, 1⟩), .act (.goOffline 2), .act (.dropConn 2),
    .act (.closeConn 2)]

/-- The pump of the TCP connection exits: the session is unbound, and the WebSocket connection
closed. -/
theorem websocket_torn_down : ∃ h h',
    run (step (Config.withDefaults 60)) (newIngress 3 100) otherTransportActs = some h ∧
      h.sessions.calls 1 = .reconnected ⟨0, "t0", "t1", ⟨.ws, 1⟩, 0⟩ (some ⟨.tcp, 1⟩) ∧
      h.sessions.closed ⟨.tcp, 1⟩ = false ∧ (h.sessions.sess 0).conn = some ⟨.ws, 1⟩ ∧
      (h.sessions.sess 0).st = .stateOnline ∧
      run (step (Config.withDefaults 60)) h tcpExitActs = some h' ∧
      (h'.sessions.sess 0).conn = none ∧ (h'.sessions.sess 0).st = .stateOffline ∧
      h'.sessions.closed ⟨.ws, 1⟩ = true :=
  ⟨_, _, rfl, rfl, rfl, rfl, rfl, rfl, rfl, rfl, rfl⟩

end Ingress

end RanGame.App
