import RanGame.App.Acceptors

/-!
# The Gateway

`GatewayConnector` (`internal/app/gateway_connector.go`) passes frames between clients and Logic
nodes. A login or a reconnect is forwarded and its response waited for; all frames come back through
`handleDownlink`, for a *uid*. `conns` says which connection that is, as soon as a client has
*named* a uid in a login request; `pending` says which channel somebody waits on.

A step is one access to what is shared. Frames under way may be taken in any order, and requests
answered at any time or never. The Gateway does not look at the number of the request in an answer.
-/

namespace RanGame.App

open Function List PartialMap

/-- What is asked of a Logic node in a handshake. -/
inductive Kind
  | login
  /-- With `broadcast` all Logic nodes are asked in turn. -/
  | reconnect (token : String) (lastReliableSeq : UInt32) (broadcast : Bool)
  deriving DecidableEq

structure Req where
  conn : Conn
  uid : String
  node : String
  kind : Kind
  deriving DecidableEq

/-- A frame that a Logic node sends. -/
inductive Body (D : Type*)
  | answer (n : ℕ) (ok : Bool)
  | data (d : D)
  deriving DecidableEq

/-- `isHandshakeResp`, and which request it is the response to. -/
def Body.answers {D : Type*} : Body D → Option ℕ
  | .answer n _ => some n
  | .data _ => none

def Body.succeeds {D : Type*} : Body D → Bool
  | .answer _ ok => ok
  | .data _ => false

/-- A frame that is under way to the Gateway, with `inner.UID`. -/
structure Down (D : Type*) where
  uid : String
  body : Body D
  deriving DecidableEq

/-- What the Gateway itself reports to a client. -/
inductive GwErr
  | uidRequired
  | noLogicNode
  | forward (text : String)
  | timeout
  | tokenInvalid
  | loginRequired
  | notRouted
  deriving DecidableEq

/-- The code and the text of the error frame. -/
def GwErr.code : GwErr → ℕ × String
  | .uidRequired => (1002, "uid required")
  | .noLogicNode => (4005, "no logic node available")
  | .forward text => (4001, text)
  | .timeout => (4001, "logic response timeout")
  | .tokenInvalid => (2002, "")
  | .loginRequired => (2001, "login required")
  | .notRouted => (2001, "session not routed")

inductive Sent (D : Type*)
  | logic (b : Body D)
  | err (code : ℕ × String)
  | pong
  deriving DecidableEq

def Sent.logic? {D : Type*} : Sent D → Option (Body D)
  | .logic b => some b
  | _ => none

/-- Where `ServeConn` is. -/
inductive Serving
  | unborn
  | reading
  /-- The request is to be sent to the first of these nodes. -/
  | asking (kind : Kind) (nodes : List String)
  | waiting (n : ℕ) (nodes : List String)
  | closing
  | closed
  deriving DecidableEq

def Serving.isOpen : Serving → Bool
  | .unborn | .closed => false
  | _ => true

/-- The kind of the handshake that a connection is in. -/
def Serving.kind? (reqs : ℕ → Req) : Serving → Option Kind
  | .asking kind _ => some kind
  | .waiting n _ => some (reqs n).kind
  | _ => none

structure GwConn (D : Type*) where
  uid : String
  serving : Serving
  written : List (Sent D)

namespace GwConn

variable {D : Type*} (g : GwConn D)

@[simps] def say (x : Sent D) : GwConn D := { g with written := g.written ++ [x] }

@[simps] def goTo (t : Serving) : GwConn D := { g with serving := t }

def quit (e : GwErr) : GwConn D := (g.say (.err e.code)).goTo .closing

def fail (kind : Kind) (e : GwErr) (nodes : List String) : GwConn D :=
  match kind, nodes with
  | .reconnect _ _ true, [] => g.quit .tokenInvalid
  | .reconnect token seq true, node :: rest =>
    g.goTo (.asking (.reconnect token seq true) (node :: rest))
  | _, _ => g.quit e

/-- The frames of Logic nodes that have been written to the client. -/
def received : List (Body D) := g.written.filterMap Sent.logic?

end GwConn

def parseNodeIDFromToken (token : String) : Option String :=
  match cut ':' token.toList with
  | none | some ([], _) => none
  | some (node, _) => some (String.ofList node)

/-- `GatewayConnector`, the links to the Logic nodes, and their answers. -/
structure GatewayConnector (D : Type*) where
  accepted : List Conn
  conn : Conn → GwConn D
  conns : PartialMap String Conn
  /-- The request that somebody waits for. -/
  pending : PartialMap UInt64 ℕ
  nreq : ℕ
  reqs : ℕ → Req
  chan : ℕ → Option (Body D)
  /-- Requests that no Logic node has answered yet. -/
  up : List ℕ
  down : List (Down D)
  /-- Frames for which `handleDownlink` has found a connection. -/
  handling : List (Conn × Body D)
  /-- The uids that have an entry in the route table. -/
  routes : String → Bool
  /-- Business frames that have been forwarded, with connection and uid. -/
  forwarded : List (Conn × String)
  /-- The connection of the last login for a uid that was answered with success. -/
  holder : PartialMap String Conn
  /-- The connection of the last login for a uid whose success has been written. -/
  lastLogin : PartialMap String Conn
  sent : String → List (Body D)

def newGatewayConnector (D : Type*) : GatewayConnector D where
  accepted := []
  conn := fun _ => ⟨"", .unborn, []⟩
  conns := fun _ => none
  pending := fun _ => none
  nreq := 0
  reqs := fun _ => ⟨⟨.tcp, 0⟩, "", "", .login⟩
  chan := fun _ => none
  up := []
  down := []
  handling := []
  routes := fun _ => false
  forwarded := []
  holder := fun _ => none
  lastLogin := fun _ => none
  sent := fun _ => []

/-- What can happen. `err` is the error of `Forward`, if it fails. -/
inductive GwAct (D : Type*)
  | accept (a : Acceptor)
  /-- `handleLogin`, for the node that `PickLogicNode` has picked -/
  | login (c : Conn) (uid : String) (node : Option String)
  /-- `handleReconnect`, with the nodes that the registry lists -/
  | reconnect (c : Conn) (token : String) (lastReliableSeq : UInt32) (nodes : List String)
  /-- `request`, up to the point where it waits -/
  | request (c : Conn) (err : Option String)
  /-- `request` takes the response from the channel, and writes it if it can. -/
  | wake (c : Conn) (ok : Bool)
  | timeout (c : Conn)
  | business (c : Conn) (err : Option String)
  | ping (c : Conn)
  | disconnect (c : Conn)
  | cleanup (c : Conn)
  /-- A Logic node answers request `n`, and sends frames for the same uid after it. -/
  | answer (n : ℕ) (ok : Bool) (replays : List D)
  | push (uid : String) (d : D)
  | loseUp (n : ℕ)
  | loseDown (k : ℕ)
  /-- `handleDownlink` looks up the connection for frame `k`. -/
  | load (k : ℕ)
  | deliver (k : ℕ)
  | route (uid : String) (bound : Bool)
  /-- A Logic node answers a login that has come through another Gateway. -/
  | loginElsewhere (uid : String)

def GwAct.conn? {D : Type*} : GwAct D → Option Conn
  | .login c _ _ | .reconnect c _ _ _ | .request c _ | .wake c _ | .timeout c | .business c _
  | .ping c | .disconnect c | .cleanup c => some c
  | _ => none

namespace GatewayConnector

variable {D : Type*} (s : GatewayConnector D)

def fresh (a : Acceptor) : Conn := ⟨a, (s.accepted.countP fun c => c.acceptor = a) + 1⟩

/-- The goroutine of a connection goes on, and `pending` may be changed. -/
@[simps] def turn (c : Conn) (g : GwConn D) (p : PartialMap UInt64 ℕ) : GatewayConnector D :=
  { s with conn := update s.conn c g, pending := p }

@[simps] def accept (c : Conn) : GatewayConnector D :=
  { s with
    accepted := s.accepted ++ [c]
    conn := update s.conn c ⟨"", .reading, []⟩ }

@[simps] def name (c : Conn) (uid : String) (g : GwConn D) : GatewayConnector D :=
  { s with
    conn := update s.conn c { g with uid := uid }
    conns := s.conns.insert uid c }

@[simps] def forward (c : Conn) (kind : Kind) (node : String) (rest : List String) :
    GatewayConnector D :=
  { s with
    conn := update s.conn c ((s.conn c).goTo (.waiting s.nreq rest))
    pending := s.pending.insert c.ID s.nreq
    nreq := s.nreq + 1
    reqs := update s.reqs s.nreq ⟨c, (s.conn c).uid, node, kind⟩
    up := s.up ++ [s.nreq] }

@[simps] def respond (c : Conn) (n : ℕ) (b : Body D) : GatewayConnector D :=
  { s with
    conn := update s.conn c (((s.conn c).say (.logic b)).goTo .reading)
    pending := s.pending.erase c.ID
    lastLogin := if (s.reqs n).kind = .login ∧ b.succeeds = true
      then s.lastLogin.insert (s.conn c).uid c else s.lastLogin }

@[simps] def cleanupConn (c : Conn) : GatewayConnector D :=
  { s with
    conn := update s.conn c ((s.conn c).goTo .closed)
    conns := if (s.conn c).uid = "" then s.conns else s.conns.erase (s.conn c).uid }

@[simps] def send (uid : String) (bodies : List (Body D)) : GatewayConnector D :=
  { s with
    down := s.down ++ bodies.map (Down.mk uid)
    sent := update s.sent uid (s.sent uid ++ bodies) }

@[simps] def answer (n : ℕ) (ok : Bool) (replays : List D) : GatewayConnector D :=
  { s.send (s.reqs n).uid (.answer n ok :: replays.map .data) with
    up := s.up.erase n
    holder := if (s.reqs n).kind = .login ∧ ok = true
      then s.holder.insert (s.reqs n).uid (s.reqs n).conn else s.holder }

@[simps] def takeDown (k : ℕ) : GatewayConnector D := { s with down := s.down.eraseIdx k }

@[simps] def found (k : ℕ) (c : Conn) (b : Body D) : GatewayConnector D :=
  { s with down := s.down.eraseIdx k, handling := s.handling ++ [(c, b)] }

@[simps] def finish (k : ℕ) : GatewayConnector D := { s with handling := s.handling.eraseIdx k }

@[simps] def hand (k : ℕ) (c : Conn) (n : ℕ) (b : Body D) : GatewayConnector D :=
  { s with
    handling := s.handling.eraseIdx k
    pending := s.pending.erase c.ID
    chan := update s.chan n (some b) }

@[simps] def pass (k : ℕ) (c : Conn) (b : Body D) : GatewayConnector D :=
  { s with
    handling := s.handling.eraseIdx k
    conn := update s.conn c ((s.conn c).say (.logic b)) }

/-- `handleDownlink`, once it has found connection `c` for frame `b`. -/
def handleDownlink (k : ℕ) (c : Conn) (b : Body D) : GatewayConnector D :=
  match b.answers, s.pending c.ID with
  | some _, some n => s.hand k c n b
  | _, _ => if (s.conn c).serving = .closed then s.finish k else s.pass k c b

def step (s : GatewayConnector D) : GwAct D → Option (GatewayConnector D)
  | .accept a => some (s.accept (s.fresh a))
  | .login c uid node =>
    if (s.conn c).serving = .reading then
      if uid = "" then some (s.turn c ((s.conn c).quit .uidRequired) s.pending)
      else
        match node with
        | none => some (s.name c uid ((s.conn c).quit .noLogicNode))
        | some node => some (s.name c uid ((s.conn c).goTo (.asking .login [node])))
    else none
  | .reconnect c token seq nodes =>
    if (s.conn c).serving = .reading then
      match parseNodeIDFromToken token with
      | some node =>
        some (s.turn c ((s.conn c).goTo (.asking (.reconnect token seq false) [node])) s.pending)
      | none =>
        if nodes = [] then some (s.turn c ((s.conn c).quit .noLogicNode) s.pending)
        else
          some (s.turn c ((s.conn c).goTo (.asking (.reconnect token seq true) nodes)) s.pending)
    else none
  | .request c err =>
    match (s.conn c).serving with
    | .asking kind (node :: rest) =>
      match err with
      | none => some (s.forward c kind node rest)
      | some text =>
        some (s.turn c ((s.conn c).fail kind (.forward text) rest) (s.pending.erase c.ID))
    | _ => none
  | .wake c ok =>
    match (s.conn c).serving with
    | .waiting n _ =>
      match s.chan n with
      | some b =>
        if ok then some (s.respond c n b)
        else some (s.turn c ((s.conn c).goTo .closing) (s.pending.erase c.ID))
      | none => none
    | _ => none
  | .timeout c =>
    match (s.conn c).serving with
    | .waiting n rest =>
      some (s.turn c ((s.conn c).fail (s.reqs n).kind .timeout rest) (s.pending.erase c.ID))
    | _ => none
  | .business c err =>
    if (s.conn c).serving = .reading then
      if (s.conn c).uid = "" then
        some (s.turn c ((s.conn c).say (.err GwErr.loginRequired.code)) s.pending)
      else if s.routes (s.conn c).uid then
        match err with
        | none => some { s with forwarded := s.forwarded ++ [(c, (s.conn c).uid)] }
        | some text => some (s.turn c ((s.conn c).say (.err (GwErr.forward text).code)) s.pending)
      else some (s.turn c ((s.conn c).say (.err GwErr.notRouted.code)) s.pending)
    else none
  | .ping c =>
    if (s.conn c).serving = .reading then some (s.turn c ((s.conn c).say .pong) s.pending)
    else none
  | .disconnect c =>
    if (s.conn c).serving = .reading then some (s.turn c ((s.conn c).goTo .closing) s.pending)
    else none
  | .cleanup c => if (s.conn c).serving = .closing then some (s.cleanupConn c) else none
  | .answer n ok replays => if n ∈ s.up then some (s.answer n ok replays) else none
  | .push uid d => some (s.send uid [.data d])
  | .loseUp n => some { s with up := s.up.erase n }
  | .loseDown k => some (s.takeDown k)
  | .load k =>
    match s.down[k]? with
    | none => none
    | some d =>
      if d.uid = "" then some (s.takeDown k)
      else
        match s.conns d.uid with
        | none => some (s.takeDown k)
        | some c => some (s.found k c d.body)
  | .deliver k =>
    match s.handling[k]? with
    | none => none
    | some (c, b) => some (s.handleDownlink k c b)
  | .route uid bound => some { s with routes := update s.routes uid bound }
  | .loginElsewhere uid => some { s with holder := s.holder.erase uid }

/-! ### What a step is -/

/-- How the goroutine of a connection can go on without a Logic node. -/
inductive Turn (reqs : ℕ → Req) : Serving → Serving → Prop
  | stay : Turn reqs .reading .reading
  | ask {token seq b nodes} : Turn reqs .reading (.asking (.reconnect token seq b) nodes)
  | retry {t token seq b nodes} (ht : t.kind? reqs = some (.reconnect token seq b)) :
      Turn reqs t (.asking (.reconnect token seq b) nodes)
  | quit {t} (ht : t.isOpen = true) : Turn reqs t .closing

variable {s s' : GatewayConnector D}

inductive Happens (s : GatewayConnector D) : GwAct D → GatewayConnector D → Prop
  | accepted {a} : Happens s (.accept a) (s.accept (s.fresh a))
  | named {c uid node g} (hread : (s.conn c).serving = .reading) (huid : uid ≠ "")
      (hserving : g.serving = .closing ∨ ∃ n, g.serving = .asking .login [n])
      (hrec : g.received = (s.conn c).received) : Happens s (.login c uid node) (s.name c uid g)
  | turned {a c g p} (ha : a.conn? = some c) (hturn : Turn s.reqs (s.conn c).serving g.serving)
      (hwait : ∀ n nodes, (s.conn c).serving = .waiting n nodes →
        a = .timeout c ∨ a = .wake c false)
      (huid : g.uid = (s.conn c).uid) (hrec : g.received = (s.conn c).received)
      (hp : (s.conn c).serving = .reading ∧ p = s.pending ∨ p = s.pending.erase c.ID)
      (hask : ∀ kind nodes, (s.conn c).serving = .asking kind nodes →
        ∃ text, a = .request c (some text)) :
      Happens s a (s.turn c g p)
  | requested {c kind node rest} (hask : (s.conn c).serving = .asking kind (node :: rest)) :
      Happens s (.request c none) (s.forward c kind node rest)
  | woken {c n rest b} (hwait : (s.conn c).serving = .waiting n rest) (hchan : s.chan n = some b) :
      Happens s (.wake c true) (s.respond c n b)
  | forwarded {c} (hread : (s.conn c).serving = .reading) (huid : (s.conn c).uid ≠ "")
      (hroute : s.routes (s.conn c).uid = true) :
      Happens s (.business c none) { s with forwarded := s.forwarded ++ [(c, (s.conn c).uid)] }
  | cleaned {c} (hclosing : (s.conn c).serving = .closing) :
      Happens s (.cleanup c) (s.cleanupConn c)
  | answered {n ok replays} (hn : n ∈ s.up) :
      Happens s (.answer n ok replays) (s.answer n ok replays)
  | pushed {uid d} : Happens s (.push uid d) (s.send uid [.data d])
  | lostUp {n} : Happens s (.loseUp n) { s with up := s.up.erase n }
  | lostDown {k} : Happens s (.loseDown k) (s.takeDown k)
  | dropped {k d} (hk : s.down[k]? = some d) (hno : d.uid = "" ∨ s.conns d.uid = none) :
      Happens s (.load k) (s.takeDown k)
  | loaded {k d c} (hk : s.down[k]? = some d) (huid : d.uid ≠ "") (hc : s.conns d.uid = some c) :
      Happens s (.load k) (s.found k c d.body)
  | handed {k c b n m} (hk : s.handling[k]? = some (c, b)) (hb : b.answers = some m)
      (hp : s.pending c.ID = some n) : Happens s (.deliver k) (s.hand k c n b)
  | passed {k c b} (hk : s.handling[k]? = some (c, b)) (hopen : (s.conn c).serving ≠ .closed)
      (hno : b.answers = none ∨ s.pending c.ID = none) : Happens s (.deliver k) (s.pass k c b)
  | discarded {k c b} (hk : s.handling[k]? = some (c, b))
      (hclosed : (s.conn c).serving = .closed) : Happens s (.deliver k) (s.finish k)
  | routed {uid bound} : Happens s (.route uid bound) { s with routes := update s.routes uid bound }
  | elsewhere {uid} : Happens s (.loginElsewhere uid) { s with holder := s.holder.erase uid }

/-- What a step makes of one connection. -/
inductive ConnStep (s : GatewayConnector D) (c : Conn) :
    GwAct D → GatewayConnector D → GwConn D → Prop
  | same {a s'} : ConnStep s c a s' (s.conn c)
  | accepted {a} (hc : c = s.fresh a) :
      ConnStep s c (.accept a) (s.accept (s.fresh a)) ⟨"", .reading, []⟩
  | named {uid node g} (hread : (s.conn c).serving = .reading) (huid : uid ≠ "")
      (hserving : g.serving = .closing ∨ ∃ n, g.serving = .asking .login [n])
      (hrec : g.received = (s.conn c).received) :
      ConnStep s c (.login c uid node) (s.name c uid g) { g with uid := uid }
  | turned {a g p} (hturn : Turn s.reqs (s.conn c).serving g.serving)
      (huid : g.uid = (s.conn c).uid) (hrec : g.received = (s.conn c).received)
      (hask : ∀ kind nodes, (s.conn c).serving = .asking kind nodes →
        ∃ text, a = .request c (some text)) :
      ConnStep s c a (s.turn c g p) g
  | requested {kind node rest} (hask : (s.conn c).serving = .asking kind (node :: rest)) :
      ConnStep s c (.request c none) (s.forward c kind node rest)
        ((s.conn c).goTo (.waiting s.nreq rest))
  | woken {n rest b} (hwait : (s.conn c).serving = .waiting n rest) (hchan : s.chan n = some b) :
      ConnStep s c (.wake c true) (s.respond c n b) (((s.conn c).say (.logic b)).goTo .reading)
  | cleaned (hclosing : (s.conn c).serving = .closing) :
      ConnStep s c (.cleanup c) (s.cleanupConn c) ((s.conn c).goTo .closed)
  | passed {k b} (hk : s.handling[k]? = some (c, b)) :
      ConnStep s c (.deliver k) (s.pass k c b) ((s.conn c).say (.logic b))

theorem turn_fail {g : GwConn D} {reqs : ℕ → Req} {kind : Kind}
    (hkind : g.serving.kind? reqs = some kind) (e : GwErr) (rest : List String) :
    Turn reqs g.serving (g.fail kind e rest).serving := by
  have hopen : g.serving.isOpen = true := by
    cases hg : g.serving <;> rw [hg] at hkind <;> first | rfl | cases hkind
  simp only [GwConn.fail]
  split
  · exact .quit hopen
  · exact .retry hkind
  · exact .quit hopen

theorem received_quit (g : GwConn D) (e : GwErr) : (g.quit e).received = g.received := by
  simp [GwConn.received, GwConn.quit, Sent.logic?]

theorem received_fail (g : GwConn D) (kind : Kind) (e : GwErr) (rest : List String) :
    (g.fail kind e rest).received = g.received ∧ (g.fail kind e rest).uid = g.uid := by
  simp only [GwConn.fail]
  split
  · exact ⟨received_quit g _, rfl⟩
  · exact ⟨rfl, rfl⟩
  · exact ⟨received_quit g _, rfl⟩

variable {a : GwAct D} {c : Conn} {n : ℕ} {d : Down D}

theorem happens_reading {g : GwConn D} (ha : a.conn? = some c)
    (hread : (s.conn c).serving = .reading) (hturn : Turn s.reqs .reading g.serving)
    (huid : g.uid = (s.conn c).uid) (hrec : g.received = (s.conn c).received) :
    Happens s a (s.turn c g s.pending) := by
  refine .turned ha (hread ▸ hturn) (fun n nodes hwait => ?_) huid hrec (.inl ⟨hread, rfl⟩)
    fun kind nodes hask => ?_
  · rw [hread] at hwait
    cases hwait
  · rw [hread] at hask
    cases hask

theorem happens_said {x : Sent D} (ha : a.conn? = some c) (hread : (s.conn c).serving = .reading)
    (hx : x.logic? = none) : Happens s a (s.turn c ((s.conn c).say x) s.pending) := by
  refine happens_reading ha hread ?_ rfl ?_
  · rw [GwConn.say_serving, hread]
    exact .stay
  · simp [GwConn.received, hx]

theorem happens_of_step (h : s.step a = some s') : Happens s a s' := by
  cases a with
  | accept a =>
    cases h
    exact .accepted
  | login c uid node =>
    obtain ⟨hread, h⟩ := Option.ite_none_right_eq_some.mp h
    split at h
    · cases h
      exact happens_reading rfl hread (.quit rfl) rfl (received_quit ..)
    next huid =>
      split at h <;> cases h
      · exact .named hread huid (.inl rfl) (received_quit ..)
      · exact .named hread huid (.inr ⟨_, rfl⟩) rfl
  | reconnect c token seq nodes =>
    obtain ⟨hread, h⟩ := Option.ite_none_right_eq_some.mp h
    split at h
    · cases h
      exact happens_reading rfl hread .ask rfl rfl
    · split at h <;> cases h
      · exact happens_reading rfl hread (.quit rfl) rfl (received_quit ..)
      · exact happens_reading rfl hread .ask rfl rfl
  | request c err =>
    simp only [step] at h
    split at h
    next kind node rest hask =>
      split at h <;> cases h
      · exact .requested hask
      next text =>
        have hfail := received_fail (s.conn c) kind (.forward text) rest
        refine .turned rfl (turn_fail (by rw [hask]; rfl) _ _) (fun n nodes hwait => ?_) hfail.2
          hfail.1 (.inr rfl) fun _ _ _ => ⟨text, rfl⟩
        rw [hask] at hwait
        cases hwait
    · cases h
  | wake c ok =>
    simp only [step] at h
    split at h
    next n rest hwait =>
      split at h
      next b hchan =>
        split at h <;> cases h
        next hok =>
          cases hok
          exact .woken hwait hchan
        next hok =>
          obtain rfl : ok = false := by simpa using hok
          refine .turned rfl (.quit (by rw [hwait]; rfl)) (fun _ _ _ => .inr rfl) rfl rfl (.inr rfl)
            fun kind nodes hask => ?_
          rw [hwait] at hask
          cases hask
      · cases h
    · cases h
  | timeout c =>
    simp only [step] at h
    split at h <;> cases h
    next n rest hwait =>
      have hfail := received_fail (s.conn c) (s.reqs n).kind .timeout rest
      refine .turned rfl (turn_fail (by rw [hwait]; rfl) _ _) (fun _ _ _ => .inl rfl) hfail.2
        hfail.1 (.inr rfl) fun kind nodes hask => ?_
      rw [hwait] at hask
      cases hask
  | business c err =>
    obtain ⟨hread, h⟩ := Option.ite_none_right_eq_some.mp h
    split at h
    · cases h
      exact happens_said rfl hread rfl
    next huid =>
      split at h
      next hroute =>
        split at h <;> cases h
        · exact .forwarded hread huid hroute
        · exact happens_said rfl hread rfl
      · cases h
        exact happens_said rfl hread rfl
  | ping c =>
    obtain ⟨hread, ⟨⟩⟩ := Option.ite_none_right_eq_some.mp h
    exact happens_said rfl hread rfl
  | disconnect c =>
    obtain ⟨hread, ⟨⟩⟩ := Option.ite_none_right_eq_some.mp h
    exact happens_reading rfl hread (.quit rfl) rfl rfl
  | cleanup c =>
    obtain ⟨hclosing, ⟨⟩⟩ := Option.ite_none_right_eq_some.mp h
    exact .cleaned hclosing
  | answer n ok replays =>
    obtain ⟨hn, ⟨⟩⟩ := Option.ite_none_right_eq_some.mp h
    exact .answered hn
  | push uid d =>
    cases h
    exact .pushed
  | loseUp n =>
    cases h
    exact .lostUp
  | loseDown k =>
    cases h
    exact .lostDown
  | load k =>
    simp only [step] at h
    split at h
    · cases h
    next d hk =>
      split at h
      next huid =>
        cases h
        exact .dropped hk (.inl huid)
      next huid =>
        split at h <;> cases h
        next hno => exact .dropped hk (.inr hno)
        next c hc => exact .loaded hk huid hc
  | deliver k =>
    simp only [step] at h
    split at h <;> cases h
    next c b hk =>
      rw [handleDownlink]
      split
      next m n hb hp => exact .handed hk hb hp
      next hno =>
        split
        next hclosed => exact .discarded hk hclosed
        next hopen =>
          refine .passed hk hopen ?_
          cases hb : b.answers with
          | none => exact .inl rfl
          | some m =>
            cases hp : s.pending c.ID with
            | none => exact .inr rfl
            | some n => exact (hno m n hb hp).elim
  | route uid bound =>
    cases h
    exact .routed
  | loginElsewhere uid =>
    cases h
    exact .elsewhere

/-! ### What is under way -/

/-- The requests that are under way or whose responses are. -/
def underway (s : GatewayConnector D) : List ℕ :=
  s.up ++ s.down.filterMap (fun d => d.body.answers) ++ s.handling.filterMap fun h => h.2.answers

theorem mem_underway : n ∈ s.underway ↔ n ∈ s.up ∨
    (∃ d ∈ s.down, d.body.answers = some n) ∨ ∃ h ∈ s.handling, h.2.answers = some n := by
  rw [underway, mem_append, mem_append, mem_filterMap, mem_filterMap, or_assoc]

theorem underway_of_subset (hn : n ∈ s'.underway) (hup : s'.up ⊆ s.up) (hdown : s'.down ⊆ s.down)
    (hhandling : s'.handling ⊆ s.handling) : n ∈ s.underway := by
  rw [mem_underway] at hn ⊢
  rcases hn with hn | ⟨d, hd, hn⟩ | ⟨h, hh, hn⟩
  · exact .inl (hup hn)
  · exact .inr (.inl ⟨d, hdown hd, hn⟩)
  · exact .inr (.inr ⟨h, hhandling hh, hn⟩)

theorem answers_of_send {uid : String} {bodies : List (Body D)} (hd : d ∈ (s.send uid bodies).down)
    (hn : d.body.answers = some n) :
    d ∈ s.down ∨ d.uid = uid ∧ ∃ b ∈ bodies, b.answers = some n := by
  rcases mem_append.mp hd with hd | hd
  · exact .inl hd
  · obtain ⟨b, hb, rfl⟩ := mem_map.mp hd
    exact .inr ⟨rfl, b, hb, hn⟩

theorem answers_of_answer {m : ℕ} {ok : Bool} {replays : List D}
    (hd : d ∈ (s.answer n ok replays).down) (hm : d.body.answers = some m) :
    d ∈ s.down ∨ d.uid = (s.reqs n).uid ∧ m = n := by
  rcases answers_of_send hd hm with hd | ⟨huid, b, hb, hm⟩
  · exact .inl hd
  · rcases mem_cons.mp hb with rfl | hb
    · exact .inr ⟨huid, (Option.some.inj hm).symm⟩
    · obtain ⟨x, -, rfl⟩ := mem_map.mp hb
      cases hm

theorem answers_of_push {uid : String} {x : D} (hd : d ∈ (s.send uid [.data x]).down)
    (hn : d.body.answers = some n) : d ∈ s.down := by
  rcases answers_of_send hd hn with hd | ⟨-, b, hb, hn⟩
  · exact hd
  · rw [mem_singleton.mp hb] at hn
    cases hn

theorem Happens.underway (h : Happens s a s') (hn : n ∈ s'.underway) :
    n ∈ s.underway ∨ n = s.nreq ∧ ∃ c kind node rest,
      (s.conn c).serving = .asking kind (node :: rest) ∧ s' = s.forward c kind node rest := by
  cases h with
  | requested hask =>
    rcases mem_underway.mp hn with hn | hn
    · rcases mem_append.mp hn with hn | hn
      · exact .inl (mem_underway.mpr (.inl hn))
      · exact .inr ⟨mem_singleton.mp hn, _, _, _, _, hask, rfl⟩
    · exact .inl (mem_underway.mpr (.inr hn))
  | answered hup =>
    refine .inl (mem_underway.mpr ?_)
    rcases mem_underway.mp hn with hn | ⟨d, hd, hn⟩ | hn
    · exact .inl (mem_of_mem_erase hn)
    · rcases answers_of_answer hd hn with hd | ⟨-, rfl⟩
      · exact .inr (.inl ⟨d, hd, hn⟩)
      · exact .inl hup
    · exact .inr (.inr hn)
  | pushed =>
    refine .inl (mem_underway.mpr ?_)
    rcases mem_underway.mp hn with hn | ⟨d, hd, hn⟩ | hn
    · exact .inl hn
    · exact .inr (.inl ⟨d, answers_of_push hd hn, hn⟩)
    · exact .inr (.inr hn)
  | lostUp =>
    exact .inl (underway_of_subset hn (erase_subset ..) (List.Subset.refl _) (List.Subset.refl _))
  | lostDown | dropped =>
    exact .inl (underway_of_subset hn (List.Subset.refl _) (eraseIdx_subset ..)
      (List.Subset.refl _))
  | @loaded k d c hk =>
    refine .inl (mem_underway.mpr ?_)
    rcases mem_underway.mp hn with hn | ⟨d, hd, hn⟩ | ⟨h, hh, hn⟩
    · exact .inl hn
    · exact .inr (.inl ⟨d, eraseIdx_subset hd, hn⟩)
    · rcases mem_append.mp hh with hh | hh
      · exact .inr (.inr ⟨h, hh, hn⟩)
      · rw [mem_singleton.mp hh] at hn
        exact .inr (.inl ⟨d, mem_of_getElem? hk, hn⟩)
  | handed | passed | discarded =>
    exact .inl (underway_of_subset hn (List.Subset.refl _) (List.Subset.refl _)
      (eraseIdx_subset ..))
  | _ => exact .inl hn

theorem Happens.reqs (h : Happens s a s') :
    s.nreq ≤ s'.nreq ∧ ∀ n < s.nreq, s'.reqs n = s.reqs n := by
  cases h with
  | requested => exact ⟨Nat.le_succ _, fun n hn => update_of_ne (Nat.ne_of_lt hn) ..⟩
  | _ => exact ⟨le_rfl, fun _ _ => rfl⟩

theorem Happens.accepted_subset (h : Happens s a s') : s.accepted ⊆ s'.accepted := by
  cases h with
  | accepted => exact subset_append_left ..
  | _ => exact List.Subset.refl _

theorem Happens.connStep (hs : Happens s a s') (c : Conn) : ConnStep s c a s' (s'.conn c) := by
  have hmove : ∀ (d : Conn) (g : GwConn D), (d = c → ConnStep s c a s' g) →
      ConnStep s c a s' (update s.conn d g c) := by
    intro d g hg
    by_cases hcd : c = d
    · subst hcd
      rw [update_self]
      exact hg rfl
    · rw [update_of_ne hcd]
      exact .same
  cases hs with
  | accepted => exact hmove _ _ fun hd => .accepted hd.symm
  | named hread huid hserving hrec =>
    exact hmove _ _ (by rintro rfl; exact .named hread huid hserving hrec)
  | turned ha hturn hwait huid hrec hp hask =>
    exact hmove _ _ (by rintro rfl; exact .turned hturn huid hrec hask)
  | woken hwait hchan => exact hmove _ _ (by rintro rfl; exact .woken hwait hchan)
  | requested hc | cleaned hc | passed hc => exact hmove _ _ (by rintro rfl; constructor; exact hc)
  | _ => exact .same

theorem Happens.waiting (hs : Happens s a s') {nodes : List String}
    (hc : (s'.conn c).serving = .waiting n nodes) :
    (s.conn c).serving = .waiting n nodes ∧ (s'.conn c).uid = (s.conn c).uid ∨
      ∃ kind node, (s.conn c).serving = .asking kind (node :: nodes) ∧ n = s.nreq ∧
        s' = s.forward c kind node nodes := by
  have hconn := hs.connStep c
  generalize s'.conn c = g at hc hconn ⊢
  cases hconn with
  | same | passed => exact .inl ⟨hc, rfl⟩
  | named hread huid hserving => rcases hserving with hg | ⟨node, hg⟩ <;> cases hg.symm.trans hc
  | turned hturn =>
    rw [hc] at hturn
    generalize (s.conn c).serving = t at hturn
    cases hturn
  | @requested kind node rest hask =>
    cases hc
    exact .inr ⟨kind, node, hask, rfl, rfl⟩
  | accepted | woken | cleaned => cases hc

/-! ### What holds in every run -/

/-- Only accepted connections act, and only requests that were forwarded are known. -/
structure Basic (s : GatewayConnector D) : Prop where
  seq : ∀ c ∈ s.accepted, c.seq ≤ s.accepted.countP fun d => d.acceptor = c.acceptor
  born : ∀ c, (s.conn c).serving ≠ .unborn → c ∈ s.accepted
  table : ∀ u c, s.conns u = some c → c ∈ s.accepted
  wait : ∀ c n nodes, (s.conn c).serving = .waiting n nodes → n < s.nreq ∧ (s.reqs n).conn = c
  reqs : ∀ n < s.nreq, (s.reqs n).conn ∈ s.accepted
  flying : ∀ n ∈ s.underway, n < s.nreq
  down : ∀ d ∈ s.down, ∀ n, d.body.answers = some n → d.uid = (s.reqs n).uid
  handling : ∀ h ∈ s.handling, h.1 ∈ s.accepted
  pending : ∀ k n, s.pending k = some n → n < s.nreq
  chan : ∀ n b, s.chan n = some b → n < s.nreq ∧ ∀ m, b.answers = some m → m < s.nreq

theorem basic_newGatewayConnector : Basic (newGatewayConnector D) where
  seq := nofun
  born := fun _ h => absurd rfl h
  table := nofun
  wait := nofun
  reqs := nofun
  flying := nofun
  down := nofun
  handling := nofun
  pending := nofun
  chan := nofun

theorem ne_unborn_of_isOpen {t : Serving} (ht : t.isOpen = true) : t ≠ .unborn := by
  rintro rfl
  cases ht

theorem Turn.isOpen {reqs : ℕ → Req} {t t' : Serving} (h : Turn reqs t t') :
    t.isOpen = true ∧ t'.isOpen = true := by
  cases h with
  | stay | ask => exact ⟨rfl, rfl⟩
  | retry ht => cases t <;> first | exact ⟨rfl, rfl⟩ | cases ht
  | quit ht => exact ⟨ht, rfl⟩

namespace Basic

theorem fresh_not_mem (h : Basic s) (a : Acceptor) : s.fresh a ∉ s.accepted := fun hmem =>
  absurd (h.seq _ hmem) (Nat.not_succ_le_self _)

theorem lt_of_mem_down (h : Basic s) {d : Down D} {n : ℕ} (hd : d ∈ s.down)
    (hn : d.body.answers = some n) : n < s.nreq :=
  h.flying n (mem_underway.mpr (.inr (.inl ⟨d, hd, hn⟩)))

theorem lt_of_mem_handling (h : Basic s) {x : Conn × Body D} {n : ℕ} (hx : x ∈ s.handling)
    (hn : x.2.answers = some n) : n < s.nreq :=
  h.flying n (mem_underway.mpr (.inr (.inr ⟨x, hx, hn⟩)))

theorem mem_of_reading (h : Basic s) {c : Conn} {t : Serving} (hc : (s.conn c).serving = t)
    (ht : t.isOpen = true) : c ∈ s.accepted :=
  h.born c (hc ▸ ne_unborn_of_isOpen ht)

variable {a : GwAct D}

variable (h : Basic s) (hs : Happens s a s')

include h hs

theorem step_seq :
    ∀ c ∈ s'.accepted, c.seq ≤ s'.accepted.countP fun d => d.acceptor = c.acceptor := by
  cases hs with
  | @accepted a =>
    intro c hc
    show c.seq ≤ (s.accepted ++ [s.fresh a]).countP fun d => d.acceptor = c.acceptor
    rw [countP_append]
    rcases mem_append.mp hc with hc | hc
    · exact (h.seq c hc).trans (Nat.le_add_right ..)
    · rw [mem_singleton.mp hc]
      simp only [fresh, countP_singleton, decide_true, if_true]
      exact le_rfl
  | _ => exact h.seq

theorem step_born (c : Conn) (hc : (s'.conn c).serving ≠ .unborn) : c ∈ s'.accepted := by
  have hopen : (s.conn c).serving.isOpen = true → c ∈ s'.accepted :=
    fun hopen => hs.accepted_subset (h.born c (ne_unborn_of_isOpen hopen))
  have hconn := hs.connStep c
  generalize s'.conn c = g at hc hconn
  cases hconn with
  | same => exact hs.accepted_subset (h.born c hc)
  | accepted heq => exact mem_append_right _ (mem_singleton.mpr heq)
  | named hread => exact hopen (by rw [hread]; rfl)
  | turned hturn => exact hopen hturn.isOpen.1
  | requested hask => exact hopen (by rw [hask]; rfl)
  | woken hwait => exact hopen (by rw [hwait]; rfl)
  | cleaned hclosing => exact hopen (by rw [hclosing]; rfl)
  | passed hk => exact h.handling _ (mem_of_getElem? hk)

theorem step_table (u : String) (c : Conn) (hc : s'.conns u = some c) : c ∈ s'.accepted := by
  refine hs.accepted_subset ?_
  cases hs with
  | named hread =>
    rcases insert_eq_some.mp hc with ⟨-, rfl⟩ | ⟨-, hc⟩
    · exact h.mem_of_reading hread rfl
    · exact h.table u c hc
  | cleaned =>
    rw [cleanupConn_conns] at hc
    split at hc
    · exact h.table u c hc
    · exact h.table u c (erase_eq_some.mp hc).2
  | _ => exact h.table u c hc

theorem step_wait (c : Conn) (n : ℕ) (nodes : List String)
    (hc : (s'.conn c).serving = .waiting n nodes) : n < s'.nreq ∧ (s'.reqs n).conn = c := by
  rcases hs.waiting hc with ⟨hold, -⟩ | ⟨kind, node, hask, rfl, rfl⟩
  · obtain ⟨hlt, hconn⟩ := h.wait c n nodes hold
    obtain ⟨hle, hsame⟩ := hs.reqs
    exact ⟨hlt.trans_le hle, by rw [hsame n hlt]; exact hconn⟩
  · exact ⟨Nat.lt_succ_self _, by rw [forward_reqs, update_self]⟩

theorem step_down (d : Down D) (hd : d ∈ s'.down) (n : ℕ) (hn : d.body.answers = some n) :
    d.uid = (s'.reqs n).uid := by
  have hkeep : d ∈ s.down → d.uid = (s'.reqs n).uid := by
    intro hd
    rw [hs.reqs.2 n (h.lt_of_mem_down hd hn)]
    exact h.down d hd n hn
  cases hs with
  | answered =>
    rcases answers_of_answer hd hn with hd | ⟨huid, rfl⟩
    · exact hkeep hd
    · exact huid
  | pushed => exact hkeep (answers_of_push hd hn)
  | lostDown | dropped | loaded => exact hkeep (eraseIdx_subset hd)
  | _ => exact hkeep hd

theorem step_handling (x : Conn × Body D) (hx : x ∈ s'.handling) : x.1 ∈ s'.accepted := by
  refine hs.accepted_subset ?_
  cases hs with
  | loaded hk huid hc =>
    rcases mem_append.mp hx with hx | hx
    · exact h.handling x hx
    · rw [mem_singleton.mp hx]
      exact h.table _ _ hc
  | handed | passed | discarded => exact h.handling x (eraseIdx_subset hx)
  | _ => exact h.handling x hx

theorem step_pending (k : UInt64) (n : ℕ) (hn : s'.pending k = some n) : n < s'.nreq := by
  cases hs with
  | requested =>
    rcases insert_eq_some.mp hn with ⟨-, rfl⟩ | ⟨-, hn⟩
    · exact Nat.lt_succ_self _
    · exact (h.pending k n hn).trans (Nat.lt_succ_self _)
  | turned ha hturn hwait huid hrec hp =>
    rcases hp with ⟨-, rfl⟩ | rfl
    · exact h.pending k n hn
    · exact h.pending k n (erase_eq_some.mp hn).2
  | woken | handed => exact h.pending k n (erase_eq_some.mp hn).2
  | _ => exact h.pending k n hn

theorem step_chan (n : ℕ) (b : Body D) (hb : s'.chan n = some b) :
    n < s'.nreq ∧ ∀ m, b.answers = some m → m < s'.nreq := by
  have hkeep : s.chan n = some b → n < s'.nreq ∧ ∀ m, b.answers = some m → m < s'.nreq := by
    intro hb
    obtain ⟨hlt, hanswers⟩ := h.chan n b hb
    exact ⟨hlt.trans_le hs.reqs.1, fun m hm => (hanswers m hm).trans_le hs.reqs.1⟩
  cases hs with
  | @handed k c b' n' m hk hb' hp =>
    by_cases hn : n = n'
    · subst hn
      rw [hand_chan, update_self] at hb
      cases hb
      exact ⟨h.pending _ n hp, fun m hm => h.lt_of_mem_handling (mem_of_getElem? hk) hm⟩
    · rw [hand_chan, update_of_ne hn] at hb
      exact hkeep hb
  | _ => exact hkeep hb

theorem step : Basic s' where
  seq := h.step_seq hs
  born := h.step_born hs
  table := h.step_table hs
  wait := h.step_wait hs
  reqs := by
    intro n hn
    refine hs.accepted_subset ?_
    cases hs with
    | requested hask =>
      by_cases heq : n = s.nreq
      · subst heq
        rw [forward_reqs, update_self]
        exact h.mem_of_reading hask rfl
      · rw [forward_reqs, update_of_ne heq]
        exact h.reqs n (Nat.lt_of_le_of_ne (Nat.le_of_lt_succ hn) heq)
    | _ => exact h.reqs n hn
  flying := by
    intro n hn
    rcases hs.underway hn with hn | ⟨rfl, _, _, _, _, -, rfl⟩
    · exact (h.flying n hn).trans_le hs.reqs.1
    · exact Nat.lt_succ_self _
  down := h.step_down hs
  handling := h.step_handling hs
  pending := h.step_pending hs
  chan := h.step_chan hs

end Basic

end GatewayConnector

end RanGame.App
