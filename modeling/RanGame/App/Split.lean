import RanGame.App.InOrder

/-!
# A Gateway and its Logic nodes

In a split deployment the sessions are on Logic nodes (`internal/app/logic_handler.go`). The
connection of a session is a `RemoteConn`: a closure that sends frames to the Gateway, under the uid
in the header of the request (`sendFunc`). That is nothing for a reconnect on a new connection.

A step of the Logic side makes the Gateway machine take the steps that Logic nodes take in it.
-/

namespace RanGame.App

open Function List Machine PartialMap
open Transport (Frame)
open Session (Downlink newDownlink downFrame)

/-- A frame of a session, with the node that has sent it. -/
structure LogicFrame where
  node : String
  frame : Frame
  deriving DecidableEq

def stripNodeIDPrefix (token nodeID : String) : String :=
  let start := nodeID.toList ++ [':']
  if start.length < token.toList.length ∧ token.toList.take start.length = start then
    String.ofList (token.toList.drop start.length)
  else token

def msgKick : UInt32 := 0x0020

/-! ### A Logic node -/

structure LogicSession where
  uid : String
  token : String
  /-- The uid under which its connection sends to this Gateway, if it does. -/
  via : Option String
  out : Downlink

/-- The frame that `pushEncoded` makes. -/
def LogicSession.next (σ : LogicSession) (msgID : UInt32) (body : Bytes) (snapshot : Bool) :
    Frame :=
  if snapshot then downFrame (σ.out.codec ||| Transport.flagSnapshot) 0 msgID body
  else downFrame σ.out.codec (σ.out.nextSeq + 1) msgID body

/-- What `Send` does to the Gateway; `ok` says whether the frame can be sent. -/
def LogicSession.sendActs (σ : LogicSession) (node : String) (f : Frame) (ok : Bool) :
    List (GwAct LogicFrame) :=
  match σ.via, ok with
  | some v, true => [.push v ⟨node, f⟩]
  | _, _ => []

/-- The sessions of a Logic node: the session manager. -/
structure LogicNode where
  sess : ℕ → LogicSession
  count : ℕ
  byUID : PartialMap String ℕ
  byToken : PartialMap String ℕ
  /-- The tokens that `genToken` has returned. -/
  generated : List String

def newLogicNode : LogicNode where
  sess := fun _ => ⟨"", "", none, newDownlink 0 1 Nat.one_pos⟩
  count := 0
  byUID := fun _ => none
  byToken := fun _ => none
  generated := []

namespace LogicNode

variable (x : LogicNode)

def Fresh (token : String) : Prop := token ≠ "" ∧ token ∉ x.generated

instance (token : String) : Decidable (x.Fresh token) := inferInstanceAs (Decidable (_ ∧ _))

@[simps] def setSess (i : ℕ) (σ : LogicSession) : LogicNode :=
  { x with sess := update x.sess i σ }

def push (i : ℕ) (msgID : UInt32) (body : Bytes) (snapshot : Bool) : LogicNode :=
  x.setSess i { x.sess i with out := (x.sess i).out.pushEncoded msgID body snapshot }

@[simps] def kickAndDestroy (i : ℕ) (notice : Bytes) : LogicNode :=
  { x with
    sess := update x.sess i { x.sess i with
      via := none
      out := (x.sess i).out.pushEncoded msgKick notice false }
    byToken := x.byToken.erase (x.sess i).token }

@[simps] def register (σ : LogicSession) : LogicNode where
  sess := update x.sess x.count σ
  count := x.count + 1
  byUID := x.byUID.insert σ.uid x.count
  byToken := x.byToken.insert σ.token x.count
  generated := σ.token :: x.generated

/-- `Create`. The session that is replaced is taken out first; tokens are different. -/
def create (σ : LogicSession) (notice : Bytes) : LogicNode :=
  match x.byUID σ.uid with
  | some i => (x.kickAndDestroy i notice).register σ
  | none => x.register σ

/-- `Reconnect`, for the session that has the token -/
@[simps] def rebind (i : ℕ) (newToken : String) (via : Option String) (codec : UInt8) :
    LogicNode :=
  { x with
    sess := update x.sess i { x.sess i with
      token := newToken
      via := via
      out := (x.sess i).out.apply (.bind codec) }
    byToken := (x.byToken.erase (x.sess i).token).insert newToken i
    generated := newToken :: x.generated }

/-- The session that `Reconnect` finds, whose token is checked again. -/
def withToken (token : String) : Option ℕ :=
  match x.byToken token with
  | some i => if (x.sess i).token = token then some i else none
  | none => none

structure Filed : Prop where
  byUID : ∀ u i, x.byUID u = some i → (x.sess i).uid = u ∧ x.byToken (x.sess i).token = some i
  byToken : ∀ t i, x.byToken t = some i →
    i < x.count ∧ (x.sess i).token = t ∧ t ∈ x.generated ∧ x.byUID (x.sess i).uid = some i
  generated : ∀ t ∈ x.generated, t ≠ ""

variable {x}

theorem filed_newLogicNode : newLogicNode.Filed where
  byUID := nofun
  byToken := nofun
  generated := nofun

theorem exists_fresh (x : LogicNode) : ∃ token, x.Fresh token := by
  have : Infinite String := by
    refine Infinite.of_injective (fun n : ℕ => String.ofList (replicate n 'a')) fun m n h => ?_
    have hlength := congrArg (fun t => t.toList.length) h
    simpa using hlength
  obtain ⟨token, htoken⟩ := Infinite.exists_notMem_finset ("" :: x.generated).toFinset
  rw [mem_toFinset, mem_cons, not_or] at htoken
  exact ⟨token, htoken⟩

theorem withToken_eq_some {token : String} {i : ℕ} :
    x.withToken token = some i ↔ x.byToken token = some i ∧ (x.sess i).token = token := by
  rw [withToken]
  cases hi : x.byToken token with
  | none => exact ⟨nofun, nofun⟩
  | some j =>
    by_cases hj : (x.sess j).token = token
    · simp only [hj, if_true, Option.some.injEq]
      exact ⟨fun h => ⟨h, h ▸ hj⟩, fun h => h.1⟩
    · simp only [hj, if_false, Option.some.injEq]
      refine ⟨nofun, ?_⟩
      rintro ⟨rfl, h⟩
      exact absurd h hj

namespace Filed

variable {u : String} {i : ℕ} {σ : LogicSession}

theorem withToken (h : x.Filed) (hi : x.byUID u = some i) : x.withToken (x.sess i).token = some i :=
  withToken_eq_some.mpr ⟨(h.byUID u i hi).2, rfl⟩

theorem lt_count (h : x.Filed) (hi : x.byUID u = some i) : i < x.count :=
  (h.byToken _ i (h.byUID u i hi).2).1

theorem setSess (h : x.Filed) (huid : σ.uid = (x.sess i).uid)
    (htoken : σ.token = (x.sess i).token) : (x.setSess i σ).Filed := by
  have hsame : ∀ j, ((x.setSess i σ).sess j).uid = (x.sess j).uid ∧
      ((x.setSess i σ).sess j).token = (x.sess j).token := by
    intro j
    rw [setSess_sess]
    by_cases hj : j = i
    · rw [hj, update_self]
      exact ⟨huid, htoken⟩
    · rw [update_of_ne hj]
      exact ⟨rfl, rfl⟩
  refine ⟨fun u j hj => ?_, fun t j hj => ?_, h.generated⟩
  · rw [(hsame j).1, (hsame j).2]
    exact h.byUID u j hj
  · rw [(hsame j).1, (hsame j).2]
    exact h.byToken t j hj

theorem of_register (huid : ∀ u i, u ≠ σ.uid → x.byUID u = some i → (x.sess i).uid = u ∧
      x.byToken (x.sess i).token = some i)
    (htoken : ∀ t i, x.byToken t = some i → i < x.count ∧ (x.sess i).token = t ∧ t ∈ x.generated ∧
      x.byUID (x.sess i).uid = some i ∧ (x.sess i).uid ≠ σ.uid)
    (hgen : ∀ t ∈ x.generated, t ≠ "") (hfresh : x.Fresh σ.token) : (x.register σ).Filed where
  byUID := by
    intro u i hi
    rcases insert_eq_some.mp hi with ⟨rfl, rfl⟩ | ⟨hu, hi⟩
    · rw [register_sess, update_self]
      exact ⟨rfl, insert_self⟩
    · obtain ⟨huid, hindex⟩ := huid u i hu hi
      obtain ⟨hlt, -, hgen, -⟩ := htoken _ i hindex
      rw [register_sess, update_of_ne (Nat.ne_of_lt hlt)]
      refine ⟨huid, (insert_of_ne fun heq => hfresh.2 ?_).trans hindex⟩
      exact heq ▸ hgen
  byToken := by
    intro t i hi
    rcases insert_eq_some.mp hi with ⟨rfl, rfl⟩ | ⟨ht, hi⟩
    · rw [register_sess, update_self]
      exact ⟨Nat.lt_succ_self _, rfl, mem_cons_self, insert_self⟩
    · obtain ⟨hlt, htok, hgen, hindex, hne⟩ := htoken t i hi
      rw [register_sess, update_of_ne (Nat.ne_of_lt hlt)]
      exact ⟨hlt.trans (Nat.lt_succ_self _), htok, mem_cons_of_mem _ hgen,
        (insert_of_ne hne).trans hindex⟩
  generated := forall_mem_cons.mpr ⟨hfresh.1, hgen⟩

theorem create (h : x.Filed) (notice : Bytes) (hfresh : x.Fresh σ.token) :
    (x.create σ notice).Filed := by
  rw [LogicNode.create]
  cases hold : x.byUID σ.uid with
  | none =>
    refine of_register (fun u i _ hi => h.byUID u i hi) (fun t i hi => ?_) h.generated hfresh
    obtain ⟨hlt, htok, hgen, hindex⟩ := h.byToken t i hi
    refine ⟨hlt, htok, hgen, hindex, fun heq => ?_⟩
    rw [heq, hold] at hindex
    cases hindex
  | some i =>
    obtain ⟨hiuid, hitoken⟩ := h.byUID _ i hold
    refine of_register (fun u j hu hj => ?_) (fun t j hj => ?_) h.generated hfresh
    · obtain ⟨huid, hindex⟩ := h.byUID u j hj
      have hji : j ≠ i := by
        rintro rfl
        exact hu (huid.symm.trans hiuid)
      rw [kickAndDestroy_sess, update_of_ne hji]
      refine ⟨huid, (erase_of_ne fun heq => hji ?_).trans hindex⟩
      rw [heq, hitoken] at hindex
      exact (Option.some.inj hindex).symm
    · obtain ⟨ht, hj⟩ := erase_eq_some.mp hj
      obtain ⟨hlt, htok, hgen, hindex⟩ := h.byToken t j hj
      have hji : j ≠ i := by
        rintro rfl
        exact ht htok.symm
      rw [kickAndDestroy_sess, update_of_ne hji]
      refine ⟨hlt, htok, hgen, hindex, fun heq => hji ?_⟩
      rw [heq, hold] at hindex
      exact (Option.some.inj hindex).symm

theorem rebind (h : x.Filed) {newToken : String} (via : Option String) (codec : UInt8)
    (hi : x.byToken (x.sess i).token = some i) (hfresh : x.Fresh newToken) :
    (x.rebind i newToken via codec).Filed where
  byUID := by
    intro u j hj
    obtain ⟨huid, hindex⟩ := h.byUID u j hj
    by_cases hji : j = i
    · subst hji
      rw [rebind_sess, update_self]
      exact ⟨huid, insert_self⟩
    · rw [rebind_sess, update_of_ne hji]
      refine ⟨huid, (insert_of_ne fun heq => hfresh.2 ?_).trans
        ((erase_of_ne fun heq => hji ?_).trans hindex)⟩
      · exact heq ▸ (h.byToken _ j hindex).2.2.1
      · rw [heq, hi] at hindex
        exact (Option.some.inj hindex).symm
  byToken := by
    intro t j hj
    rcases insert_eq_some.mp hj with ⟨rfl, rfl⟩ | ⟨-, hj⟩
    · obtain ⟨hlt, -, -, hindex⟩ := h.byToken _ _ hi
      rw [rebind_sess, update_self]
      exact ⟨hlt, rfl, mem_cons_self, hindex⟩
    · obtain ⟨ht, hj⟩ := erase_eq_some.mp hj
      obtain ⟨hlt, htok, hgen, hindex⟩ := h.byToken t j hj
      have hji : j ≠ i := by
        rintro rfl
        exact ht htok.symm
      rw [rebind_sess, update_of_ne hji]
      exact ⟨hlt, htok, mem_cons_of_mem _ hgen, hindex⟩
  generated := forall_mem_cons.mpr ⟨hfresh.1, h.generated⟩

theorem token_ne (h : x.Filed) (hi : x.byUID u = some i) : (x.sess i).token ≠ "" :=
  h.generated _ (h.byToken _ i (h.byUID u i hi).2).2.2.1

end Filed

theorem create_of_ne (h : x.Filed) {σ : LogicSession} (notice : Bytes) {u : String} {i : ℕ}
    (hi : x.byUID u = some i) (hu : u ≠ σ.uid) :
    (x.create σ notice).byUID u = some i ∧ (x.create σ notice).sess i = x.sess i := by
  have hcount := Nat.ne_of_lt (h.lt_count hi)
  rw [create]
  cases hold : x.byUID σ.uid with
  | none =>
    refine ⟨(insert_of_ne hu).trans hi, ?_⟩
    rw [register_sess, update_of_ne hcount]
  | some j =>
    refine ⟨(insert_of_ne hu).trans hi, ?_⟩
    have hij : i ≠ j := by
      rintro rfl
      exact hu ((h.byUID u i hi).1.symm.trans (h.byUID _ i hold).1)
    show update (update x.sess j _) x.count σ i = x.sess i
    rw [update_of_ne hcount, update_of_ne hij]

end LogicNode

/-! ### The Logic side -/

/-- Where a node is with a reconnect request. -/
inductive LogicTask
  | idle
  | bound (i : ℕ)
  /-- The response is to be sent, and then these frames. -/
  | replying (reliable snapshots : List Frame)
  | replaying (reliable snapshots : List Frame)
  deriving DecidableEq

namespace LogicTask

def isBound : LogicTask → Bool
  | bound _ => true
  | _ => false

def isReplying : LogicTask → Bool
  | replying _ _ => true
  | _ => false

def next? : LogicTask → Option Frame
  | replaying (f :: _) _ | replaying [] (f :: _) => some f
  | _ => none

/-- The next frame has been sent, or could not be sent: then the loop is left. -/
def advance (ok : Bool) : LogicTask → LogicTask
  | replaying (_ :: reliable) snapshots => replaying (if ok then reliable else []) snapshots
  | replaying [] (_ :: snapshots) => replaying [] (if ok then snapshots else [])
  | t => t

end LogicTask

structure Logic where
  nodes : String → LogicNode
  table : PartialMap String String
  task : ℕ → LogicTask
  /-- The frames that are replayed after the response to a request. -/
  replays : ℕ → List Frame

def newLogic : Logic where
  nodes := fun _ => newLogicNode
  table := fun _ => none
  task := fun _ => .idle
  replays := fun _ => []

/-- `Bind`, if the route table can be written. -/
def bindActs (uid : String) (bound : Bool) : List (GwAct LogicFrame) :=
  if bound then [.route uid true] else []

namespace Logic

variable (l : Logic)

@[simps] def setNode (node : String) (x : LogicNode) : Logic :=
  { l with nodes := update l.nodes node x }

@[simps] def setTask (n : ℕ) (t : LogicTask) : Logic :=
  { l with task := update l.task n t }

@[simps] def bindRoute (uid node : String) : Logic :=
  { l with table := l.table.insert uid node }

@[simps] def unbindRoute (uid node : String) : Logic :=
  { l with table := if l.table uid = some node then l.table.erase uid else l.table }

/-- `kickAndDestroy` sends a notice, and `OnRelease` deletes the route. -/
def kickActs (node uid : String) (notice : Bytes) (told : Bool) : List (GwAct LogicFrame) :=
  match (l.nodes node).byUID uid with
  | none => []
  | some i =>
    let σ := (l.nodes node).sess i
    σ.sendActs node (σ.next msgKick notice false) told ++
      if l.table uid = some node then [.route uid false] else []

/-- `Create`, and `Bind` if the route table can be written. -/
def login (node : String) (σ : LogicSession) (notice : Bytes) (bound : Bool) : Logic :=
  let l' := ((if ((l.nodes node).byUID σ.uid).isSome then l.unbindRoute σ.uid node else l).setNode
    node ((l.nodes node).create σ notice))
  if bound then l'.bindRoute σ.uid node else l'

/-- `Replay`: nothing is taken from the ring if something in it is missing. -/
def replay (n : ℕ) (out : Downlink) (lastSeq : UInt32) : Logic :=
  let reliable := if (out.replay lastSeq []).2.2 then [] else (out.replay lastSeq []).1
  let snapshots := (out.replay lastSeq []).2.1
  { l.setTask n (.replying reliable snapshots) with
    replays := update l.replays n (reliable ++ snapshots) }

end Logic

/-! ### The whole -/

/-- A step that the Logic nodes take in the Gateway machine. -/
def GwAct.isLogic {D : Type*} : GwAct D → Bool
  | .answer _ _ _ | .push _ _ | .route _ _ | .loginElsewhere _ => true
  | _ => false

/-- The number of the last frame that the client has. -/
def Kind.lastReliableSeq : Kind → UInt32
  | .login => 0
  | .reconnect _ seq _ => seq

/-- A request that the node may be unable to decode, although the Gateway was not. -/
def Kind.undecoded : Kind → Bool
  | .login => true
  | .reconnect _ _ broadcast => broadcast

structure Split where
  gw : GatewayConnector LogicFrame
  logic : Logic

def newSplit : Split := ⟨newGatewayConnector LogicFrame, newLogic⟩

/-- What can happen: whether the route table could be written (`bound`), and frames sent (`told`,
`ok`). -/
inductive SplitAct
  | gateway (a : GwAct LogicFrame)
  /-- `handleLogin` -/
  | login (n : ℕ) (newToken : String) (codec : UInt8) (notice : Bytes) (told bound : Bool)
  | reject (n : ℕ)
  /-- `handleReconnect`, up to `Reconnect` -/
  | reconnect (n : ℕ) (newToken : String) (codec : UInt8)
  /-- `Bind` and `Replay` -/
  | replay (n : ℕ) (bound : Bool)
  | reply (n : ℕ) (ok : Bool)
  | sendNext (n : ℕ) (ok : Bool)
  | push (node : String) (i : ℕ) (msgID : UInt32) (body : Bytes) (snapshot ok : Bool)
  /-- A business frame or a ping is answered. -/
  | respond (node uid : String) (f : Frame)
  | loginElsewhere (node uid newToken : String) (codec : UInt8) (notice : Bytes) (told bound : Bool)
  /-- A client of another Gateway has the token of session `i`. -/
  | reconnectElsewhere (node : String) (i : ℕ) (newToken : String) (codec : UInt8) (bound : Bool)

def SplitAct.request? : SplitAct → Option ℕ
  | .login n _ _ _ _ _ | .reject n | .reconnect n _ _ | .replay n _ | .reply n _
  | .sendNext n _ => some n
  | _ => none

namespace Split

variable (replayCap : ℕ) (hcap : 0 < replayCap) (s : Split)

def node (n : ℕ) : LogicNode := s.logic.nodes (s.gw.reqs n).node

/-- The session whose token is in the request. -/
def wanted (n : ℕ) : Option ℕ :=
  match (s.gw.reqs n).kind with
  | .login => none
  | .reconnect token _ _ => (s.node n).withToken (stripNodeIDPrefix token (s.gw.reqs n).node)

def Enabled : SplitAct → Prop
  | .gateway a => a.isLogic = false
  | .login n newToken _ _ _ _ => n ∈ s.gw.up ∧ s.logic.task n = .idle ∧
      (s.gw.reqs n).kind = .login ∧ (s.node n).Fresh newToken
  | .reject n => n ∈ s.gw.up ∧ s.logic.task n = .idle ∧ (s.gw.reqs n).kind.undecoded = true
  | .reconnect n newToken _ => n ∈ s.gw.up ∧ s.logic.task n = .idle ∧
      (s.gw.reqs n).kind ≠ .login ∧ (s.node n).Fresh newToken
  | .replay n _ => (s.logic.task n).isBound = true
  | .reply n _ => (s.logic.task n).isReplying = true
  | .sendNext n _ => (s.logic.task n).next? ≠ none
  | .push _ _ _ _ _ _ | .respond _ _ _ => True
  | .loginElsewhere node uid newToken _ _ _ _ => uid ≠ "" ∧ (s.logic.nodes node).Fresh newToken
  | .reconnectElsewhere node i newToken _ _ =>
    (s.logic.nodes node).withToken ((s.logic.nodes node).sess i).token = some i ∧
      (s.logic.nodes node).Fresh newToken

instance (a : SplitAct) : Decidable (s.Enabled a) := by
  cases a <;> unfold Enabled <;> infer_instance

def acts : SplitAct → List (GwAct LogicFrame)
  | .gateway a => [a]
  | .login n _ _ notice told bound =>
    s.logic.kickActs (s.gw.reqs n).node (s.gw.reqs n).uid notice told ++
      bindActs (s.gw.reqs n).uid bound ++ [.answer n bound []]
  | .reject n => [.answer n false []]
  | .reconnect n _ _ => if s.wanted n = none then [.answer n false []] else []
  | .replay n bound =>
    match s.logic.task n with
    | .bound i => if bound then bindActs ((s.node n).sess i).uid true else [.answer n false []]
    | _ => []
  | .reply n ok => if ok then [.answer n true []] else [.loseUp n]
  | .sendNext n ok =>
    match (s.logic.task n).next? with
    | some f => if ok then [.push (s.gw.reqs n).uid ⟨(s.gw.reqs n).node, f⟩] else []
    | none => []
  | .push node i msgID body snapshot ok =>
    let σ := (s.logic.nodes node).sess i
    σ.sendActs node (σ.next msgID body snapshot) ok
  | .respond node uid f => [.push uid ⟨node, f⟩]
  | .loginElsewhere node uid _ _ notice told bound =>
    s.logic.kickActs node uid notice told ++ bindActs uid bound
  | .reconnectElsewhere node i _ _ bound => bindActs ((s.logic.nodes node).sess i).uid bound

/-- What a step does to the Logic side. -/
def after : SplitAct → Logic
  | .gateway _ | .reject _ | .respond _ _ _ => s.logic
  | .login n newToken codec notice _ bound =>
    s.logic.login (s.gw.reqs n).node ⟨(s.gw.reqs n).uid, newToken, some (s.gw.reqs n).uid,
      newDownlink codec replayCap hcap⟩ notice bound
  | .reconnect n newToken codec =>
    match s.wanted n with
    | some i => (s.logic.setNode (s.gw.reqs n).node
        ((s.node n).rebind i newToken (some (s.gw.reqs n).uid) codec)).setTask n (.bound i)
    | none => s.logic
  | .replay n bound =>
    match s.logic.task n with
    | .bound i =>
      let σ := (s.node n).sess i
      if bound then
        (s.logic.bindRoute σ.uid (s.gw.reqs n).node).replay n σ.out
          (s.gw.reqs n).kind.lastReliableSeq
      else s.logic.setTask n .idle
    | _ => s.logic
  | .reply n _ =>
    match s.logic.task n with
    | .replying reliable snapshots => s.logic.setTask n (.replaying reliable snapshots)
    | _ => s.logic
  | .sendNext n ok => s.logic.setTask n ((s.logic.task n).advance ok)
  | .push node i msgID body snapshot _ =>
    s.logic.setNode node ((s.logic.nodes node).push i msgID body snapshot)
  | .loginElsewhere node uid newToken codec notice _ bound =>
    s.logic.login node ⟨uid, newToken, none, newDownlink codec replayCap hcap⟩ notice bound
  | .reconnectElsewhere node i newToken codec bound =>
    let l := s.logic.setNode node ((s.logic.nodes node).rebind i newToken none codec)
    if bound then l.bindRoute ((s.logic.nodes node).sess i).uid node else l

def step (s : Split) (a : SplitAct) : Option Split :=
  if s.Enabled a then
    (run GatewayConnector.step s.gw (s.acts a)).map fun g => ⟨g, s.after replayCap hcap a⟩
  else none

/-! ### What a step does to the Gateway -/

/-- Nothing goes wrong, in the Gateway or when a node answers a reconnect. -/
def Steady (p : Body LogicFrame → Bool) (s : Split) : SplitAct → Prop
  | .gateway a => s.gw.Steady p a
  | .replay _ bound => bound = true
  | .reply _ ok | .sendNext _ ok => ok = true
  | _ => True

instance (p : Body LogicFrame → Bool) (a : SplitAct) : Decidable (s.Steady p a) := by
  cases a <;> unfold Steady <;> infer_instance

variable {replayCap hcap s} {s' : Split} {a : SplitAct} {p : Body LogicFrame → Bool}

theorem step_eq_some : step replayCap hcap s a = some s' ↔ s.Enabled a ∧
    run GatewayConnector.step s.gw (s.acts a) = some s'.gw ∧
    s'.logic = s.after replayCap hcap a := by
  rw [step]
  split
  next hen =>
    rw [Option.map_eq_some_iff]
    constructor
    · rintro ⟨g, hg, rfl⟩
      exact ⟨hen, hg, rfl⟩
    · rintro ⟨-, hg, hlogic⟩
      exact ⟨s'.gw, hg, by rw [← hlogic]⟩
  next hen => exact ⟨nofun, fun h => absurd h.1 hen⟩

theorem mem_sendActs {σ : LogicSession} {node : String} {f : Frame} {ok : Bool}
    {b : GwAct LogicFrame} (hb : b ∈ σ.sendActs node f ok) : ∃ v d, b = .push v d := by
  unfold LogicSession.sendActs at hb
  split at hb
  · exact ⟨_, _, mem_singleton.mp hb⟩
  · cases hb

theorem mem_bindActs {uid : String} {bound : Bool} {b : GwAct LogicFrame}
    (hb : b ∈ bindActs uid bound) : b = .route uid true := by
  rw [bindActs] at hb
  split at hb
  · exact mem_singleton.mp hb
  · cases hb

theorem mem_kickActs {l : Logic} {node uid : String} {notice : Bytes} {told : Bool}
    {b : GwAct LogicFrame} (hb : b ∈ l.kickActs node uid notice told) :
    (∃ v d, b = .push v d) ∨ b = .route uid false := by
  rw [Logic.kickActs] at hb
  split at hb
  · cases hb
  · rcases mem_append.mp hb with hb | hb
    · exact .inl (mem_sendActs hb)
    · split at hb
      · exact .inr (mem_singleton.mp hb)
      · cases hb

def loginUID (s : Split) : SplitAct → Option String
  | .login n _ _ _ _ _ => some (s.gw.reqs n).uid
  | .loginElsewhere _ uid _ _ _ _ _ => some uid
  | _ => none

/-- What a step may do to the Gateway: only a login deletes a route. -/
inductive Effect (s : Split) (a : SplitAct) : GwAct LogicFrame → Prop
  | gateway {b} (ha : a = .gateway b) : Effect s a b
  | push {v d} : Effect s a (.push v d)
  | answer {n ok} (ha : a.request? = some n) : Effect s a (.answer n ok [])
  | bind {uid} : Effect s a (.route uid true)
  | unbind {uid} (ha : s.loginUID a = some uid) : Effect s a (.route uid false)

theorem effect_of_mem (hok : s.Steady p a) {b : GwAct LogicFrame} (hb : b ∈ s.acts a) :
    Effect s a b := by
  have hkick : ∀ {node uid notice told}, s.loginUID a = some uid →
      b ∈ s.logic.kickActs node uid notice told → Effect s a b := by
    intro node uid notice told ha hb
    rcases mem_kickActs hb with ⟨v, d, rfl⟩ | rfl
    · exact .push
    · exact .unbind ha
  have hbind : ∀ {uid bound}, b ∈ bindActs uid bound → Effect s a b := by
    intro uid bound hb
    rw [mem_bindActs hb]
    exact .bind
  have hanswer : ∀ {n ok}, a.request? = some n → b ∈ [GwAct.answer n ok []] → Effect s a b := by
    intro n ok ha hb
    rw [mem_singleton.mp hb]
    exact .answer ha
  cases a with
  | gateway a =>
    rw [mem_singleton.mp hb]
    exact .gateway rfl
  | login n newToken codec notice told bound =>
    rcases mem_append.mp hb with hb | hb
    · rcases mem_append.mp hb with hb | hb
      · exact hkick rfl hb
      · exact hbind hb
    · exact hanswer rfl hb
  | reject n => exact hanswer rfl hb
  | reconnect n newToken codec =>
    simp only [acts] at hb
    split at hb
    · exact hanswer rfl hb
    · cases hb
  | replay n bound =>
    obtain rfl : bound = true := hok
    simp only [acts, if_true] at hb
    split at hb
    · exact hbind hb
    · cases hb
  | reply n ok =>
    obtain rfl : ok = true := hok
    exact hanswer rfl hb
  | sendNext n ok =>
    simp only [acts] at hb
    split at hb
    · split at hb
      · rw [mem_singleton.mp hb]
        exact .push
      · cases hb
    · cases hb
  | push node i msgID body snapshot ok =>
    obtain ⟨v, d, rfl⟩ := mem_sendActs hb
    exact .push
  | respond node uid f =>
    rw [mem_singleton.mp hb]
    exact .push
  | loginElsewhere node uid newToken codec notice told bound =>
    rcases mem_append.mp hb with hb | hb
    · exact hkick rfl hb
    · exact hbind hb
  | reconnectElsewhere node i newToken codec bound => exact hbind hb

/-- **What the Gateway does in a step of the whole.** -/
theorem reaches_of_step (hok : s.Steady p a) (h : step replayCap hcap s a = some s') :
    Reaches GatewayConnector.step (fun t b => t.Steady p b ∧ Effect s a b) s.gw s'.gw := by
  obtain ⟨-, hrun, -⟩ := step_eq_some.mp h
  refine reaches_of_run hrun ?_
  by_cases ha : ∃ b, a = .gateway b
  · obtain ⟨b, rfl⟩ := ha
    exact ⟨⟨hok, .gateway rfl⟩, fun _ _ => trivial⟩
  · -- what Logic nodes do is always orderly
    refine along_of_invariant (I := fun _ => True) (P := Effect s a) (fun t b _ hb => ?_)
      (fun _ _ _ _ _ _ => trivial) trivial fun b hb => effect_of_mem hok hb
    refine ⟨?_, hb⟩
    cases hb with
    | gateway hb => exact absurd ⟨_, hb⟩ ha
    | push | answer | bind | unbind => exact ⟨trivial, trivial, trivial⟩

end Split

namespace GatewayConnector

variable {D : Type*} {s s' : GatewayConnector D} {a : GwAct D}

theorem Happens.sent (hs : Happens s a s') (u : String) : ∃ new, s'.sent u = s.sent u ++ new := by
  have hsend : ∀ (uid : String) (bodies : List (Body D)), ∃ new,
      (s.send uid bodies).sent u = s.sent u ++ new := by
    intro uid bodies
    rw [send_sent]
    by_cases hu : u = uid
    · exact ⟨bodies, by rw [hu, update_self]⟩
    · exact ⟨[], by rw [update_of_ne hu, append_nil]⟩
  cases hs with
  | answered | pushed => exact hsend _ _
  | _ => exact ⟨[], (append_nil _).symm⟩

theorem Happens.routes (hs : Happens s a s') {u : String} (ha : a ≠ .route u false)
    (hu : s.routes u = true) : s'.routes u = true := by
  cases hs with
  | @routed uid bound =>
    show update s.routes uid bound u = true
    by_cases huid : u = uid
    · subst huid
      rw [update_self]
      cases bound with
      | true => rfl
      | false => exact absurd rfl ha
    · rw [update_of_ne huid]
      exact hu
  | _ => exact hu

theorem Happens.up (hs : Happens s a s') {p : Body D → Bool} (hprompt : s.Prompt p a) {n : ℕ}
    (ha : ∀ ok replays, a ≠ .answer n ok replays) (hn : n ∈ s.up) : n ∈ s'.up := by
  cases hs with
  | requested => exact mem_append_left _ hn
  | @answered m ok replays =>
    refine (mem_erase_of_ne fun heq => ha ok replays ?_).mpr hn
    rw [heq]
  | lostUp => exact hprompt.elim
  | _ => exact hn

end GatewayConnector

namespace Split

variable {replayCap : ℕ} {hcap : 0 < replayCap} {s s' : Split} {a : SplitAct}
  {p : Body LogicFrame → Bool}

variable (hok : s.Steady p a) (h : step replayCap hcap s a = some s')

include hok h

theorem reqs_of_step : s.gw.nreq ≤ s'.gw.nreq ∧ ∀ n < s.gw.nreq, s'.gw.reqs n = s.gw.reqs n := by
  refine (reaches_of_step hok h).invariant (I := fun t => s.gw.nreq ≤ t.nreq ∧
    ∀ n < s.gw.nreq, t.reqs n = s.gw.reqs n) (fun t b t' ht _ hstep => ?_) ⟨le_rfl, fun _ _ => rfl⟩
  obtain ⟨hle, hsame⟩ := (GatewayConnector.happens_of_step hstep).reqs
  exact ⟨ht.1.trans hle, fun n hn => (hsame n (hn.trans_le ht.1)).trans (ht.2 n hn)⟩

theorem sent_of_step (u : String) : ∃ new, s'.gw.sent u = s.gw.sent u ++ new := by
  refine (reaches_of_step hok h).invariant (I := fun t => ∃ new, t.sent u = s.gw.sent u ++ new)
    (fun t b t' ht _ hstep => ?_) ⟨[], (append_nil _).symm⟩
  obtain ⟨old, hold⟩ := ht
  obtain ⟨new, hnew⟩ := (GatewayConnector.happens_of_step hstep).sent u
  exact ⟨old ++ new, by rw [hnew, hold, append_assoc]⟩

theorem routes_of_step {u : String} (ha : s.loginUID a ≠ some u) (hu : s.gw.routes u = true) :
    s'.gw.routes u = true := by
  refine (reaches_of_step hok h).invariant (I := fun t => t.routes u = true)
    (fun t b t' ht hb hstep => ?_) hu
  refine (GatewayConnector.happens_of_step hstep).routes ?_ ht
  rintro rfl
  cases hb.2 with
  | gateway hgw =>
    obtain ⟨hen, -⟩ := step_eq_some.mp h
    subst hgw
    cases hen
  | unbind hlogin => exact ha hlogin

theorem up_of_step {n : ℕ} (ha : a.request? ≠ some n) (hn : n ∈ s.gw.up) : n ∈ s'.gw.up := by
  refine (reaches_of_step hok h).invariant (I := fun t => n ∈ t.up)
    (fun t b t' ht hb hstep => ?_) hn
  refine (GatewayConnector.happens_of_step hstep).up hb.1.2.2 ?_ ht
  rintro ok replays rfl
  cases hb.2 with
  | gateway hgw =>
    obtain ⟨hen, -⟩ := step_eq_some.mp h
    subst hgw
    cases hen
  | answer hreq => exact ha hreq

theorem conn_of_step (ha : ∀ b, a ≠ .gateway b) : s'.gw.conn = s.gw.conn := by
  refine (reaches_of_step hok h).invariant (I := fun t => t.conn = s.gw.conn)
    (fun t b t' ht hb hstep => ?_) rfl
  rw [← ht]
  cases hb.2 with
  | gateway hb => exact absurd hb (ha b)
  | push | answer | bind | unbind =>
    cases GatewayConnector.happens_of_step hstep with
    | turned hc => cases hc
    | _ => rfl

end Split

end RanGame.App
