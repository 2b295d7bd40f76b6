import RanGame.Lib.Machine
import RanGame.Session.Replay

/-!
# Delivery to a client that reconnects

One session of `internal/session` with everything that runs against it: actors that push
(`pushEncoded`, then `Send`), and for every connection the goroutine that serves it
(`handleReconnect` and `Manager.Reconnect`, then the read pump, then `MarkOfflineConn`). Each
critical section is one action, and so is each hand-over of a frame to a connection, whose write
channel is bounded.
-/

namespace RanGame.Session

open Transport

abbrev ConnID := ℕ

inductive State
  | stateOnline
  | stateOffline
  | stateReleased
  deriving DecidableEq, Repr

/-- Where a push is. -/
inductive Pusher
  | idle
  | encoding (msgID : UInt32) (body : Bytes) (snapshot : Bool)
  | buffering (flag : UInt8) (msgID : UInt32) (body : Bytes) (snapshot : Bool)
  /-- `Session.Send`, about to read the state. -/
  | checking (f : Frame) (snapshot : Bool)
  /-- `ConnSession.Send`, about to read the bound connection. -/
  | routing (f : Frame) (snapshot : Bool)
  | pushing (f : Frame) (snapshot : Bool) (c : ConnID)
  deriving DecidableEq

/-- Where the goroutine that serves a connection is. -/
inductive Handler
  | reading
  /-- The token is rotated: about to bind. -/
  | binding (lastSeq : UInt32) (codec : UInt8)
  /-- Bound in place of `old`: about to go online. -/
  | onlining (old : Option ConnID) (lastSeq : UInt32) (codec : UInt8)
  | closingOld (old : Option ConnID) (lastSeq : UInt32)
  | replaying (lastSeq : UInt32)
  | snapping (frames : List Frame)
  | responding (frames snaps : List Frame)
  /-- Writing the replayed frames, then the snapshots. -/
  | writing (frames snaps : List Frame)
  | pumping
  /-- `MarkOfflineConn`, unbound: about to go offline. -/
  | unbinding
  /-- `MarkOfflineConn`: about to close its connection. -/
  | leaving
  | done
  deriving DecidableEq

/-- A connection: its goroutine, its write channel and, as history, whether it was ever bound and
which reliable frames it has accepted. -/
structure Conn where
  handler : Handler := .reading
  queued : ℕ := 0
  closed : Bool := false
  wasBound : Bool := false
  handed : List UInt32 := []

/-- Can the connection take a frame, or refuse one, given whether the frame can be encoded? -/
def Conn.canAnswer (k : Conn) (writeCap : ℕ) (encodable accepted : Bool) : Bool :=
  match accepted with
  | true => encodable && decide (k.queued < writeCap)
  | false => !encodable || k.closed || decide (writeCap ≤ k.queued)

/-- A hand-over of a frame, which counts as the reliable frames `seqs`. -/
def Conn.hand (k : Conn) (seqs : List UInt32) (accepted : Bool) : Conn :=
  if accepted then { k with queued := k.queued + 1, handed := k.handed ++ seqs } else k

/-- A session with `n` pushers. -/
structure Delivery (n : ℕ) where
  down : Downlink
  st : State
  bound : Option ConnID
  /-- The reconnect token, by its number in the order of generation. -/
  token : ℕ
  /-- The tokens that clients have been told. -/
  known : List ℕ
  conns : ConnID → Conn
  pushers : Fin n → Pusher

inductive DeliveryAct (n : ℕ)
  | push (i : Fin n) (msgID : UInt32) (body : Bytes) (snapshot : Bool)
  | readCodec (i : Fin n)
  | buffer (i : Fin n)
  | checkState (i : Fin n)
  | readConn (i : Fin n)
  | deliver (i : Fin n) (accepted : Bool)
  | reconnect (c : ConnID) (token : ℕ) (lastSeq : UInt32) (codec : UInt8)
  | bind (c : ConnID)
  | goOnline (c : ConnID)
  | closeOld (c : ConnID)
  | readRing (c : ConnID)
  | readSnaps (c : ConnID)
  | respond (c : ConnID) (accepted : Bool)
  | write (c : ConnID) (accepted : Bool)
  | startPump (c : ConnID)
  | hangUp (c : ConnID)
  | goOffline (c : ConnID)
  | closeSelf (c : ConnID)
  | flush (c : ConnID)
  | other (c : ConnID)
  | drop (c : ConnID)
  | release
  deriving DecidableEq

namespace Delivery

variable {n : ℕ} (s : Delivery n)

def setPusher (i : Fin n) (p : Pusher) : Delivery n :=
  { s with pushers := Function.update s.pushers i p }

def setConn (c : ConnID) (k : Conn) : Delivery n :=
  { s with conns := Function.update s.conns c k }

def setHandler (c : ConnID) (h : Handler) : Delivery n :=
  s.setConn c { s.conns c with handler := h }

def close (c : ConnID) : Delivery n := s.setConn c { s.conns c with closed := true }

end Delivery

def encodable (f : Frame) : Bool :=
  match encodeFrame f with
  | .ok _ => true
  | .error _ => false

namespace Delivery

variable {n : ℕ} (writeCap : ℕ) (s : Delivery n)

/-- `seqMu` or `snapMu`: buffer the frame. -/
def bufferStep (i : Fin n) : Option (Delivery n) :=
  match s.pushers i with
  | .buffering flag msgID body true =>
    let f := downFrame flag 0 msgID body
    some { s.setPusher i (.checking f true) with
      down := { s.down with snaps := s.down.snaps.put f } }
  | .buffering flag msgID body false =>
    some { s.setPusher i (.checking (downFrame flag (s.down.nextSeq + 1) msgID body) false) with
      down := s.down.number flag msgID body }
  | _ => none

/-- The end of `ConnSession.Send`: encode and push. -/
def deliverStep (i : Fin n) (accepted : Bool) : Option (Delivery n) :=
  match s.pushers i with
  | .pushing f snapshot c =>
    if (s.conns c).canAnswer writeCap (encodable f) accepted then
      some ((s.setConn c ((s.conns c).hand (if snapshot then [] else [f.seq]) accepted)).setPusher i
        .idle)
    else none
  | _ => none

/-- One frame of the replay, of which each part stops at the first that is refused. -/
def writeStep (c : ConnID) (accepted : Bool) : Option (Delivery n) :=
  match (s.conns c).handler with
  | .writing (f :: frames) snaps =>
    if (s.conns c).canAnswer writeCap (encodable f) accepted then
      some (s.setConn c { (s.conns c).hand [f.seq] accepted with
        handler := .writing (if accepted then frames else []) snaps })
    else none
  | .writing [] (f :: snaps) =>
    if (s.conns c).canAnswer writeCap (encodable f) accepted then
      some (s.setConn c { (s.conns c).hand [] accepted with
        handler := .writing [] (if accepted then snaps else []) })
    else none
  | _ => none

/-- The response of a login or reconnect, with the token; if refused, the goroutine goes on reading.
-/
def respondStep (c : ConnID) (accepted : Bool) : Option (Delivery n) :=
  match (s.conns c).handler with
  | .responding frames snaps =>
    if (s.conns c).canAnswer writeCap true accepted then
      some { s.setConn c { (s.conns c).hand [] accepted with
          handler := if accepted then .writing frames snaps else .reading } with
        known := if accepted then s.token :: s.known else s.known }
    else none
  | _ => none

/-- The connection fails. The read pump unbinds the session if it is still bound to it; the
handshake closes the connection. -/
def hangUpStep (c : ConnID) : Option (Delivery n) :=
  match (s.conns c).handler with
  | .pumping =>
    if s.bound = some c then some { s.setHandler c .unbinding with bound := none }
    else some (s.setHandler c .done)
  | .reading => some (s.setConn c { s.conns c with handler := .done, closed := true })
  | _ => none

def step : DeliveryAct n → Option (Delivery n)
  | .push i msgID body snapshot =>
    if s.pushers i = .idle then some (s.setPusher i (.encoding msgID body snapshot)) else none
  | .readCodec i =>
    match s.pushers i with
    | .encoding msgID body snapshot =>
      some (s.setPusher i (.buffering
        (if snapshot then s.down.codec ||| flagSnapshot else s.down.codec) msgID body snapshot))
    | _ => none
  | .buffer i => s.bufferStep i
  | .checkState i =>
    match s.pushers i with
    | .checking f snapshot =>
      some (s.setPusher i (if s.st = .stateOnline then .routing f snapshot else .idle))
    | _ => none
  | .readConn i =>
    match s.pushers i with
    | .routing f snapshot =>
      some (s.setPusher i (match s.bound with
        | some c => .pushing f snapshot c
        | none => .idle))
    | _ => none
  | .deliver i accepted => s.deliverStep writeCap i accepted
  | .reconnect c token lastSeq codec =>
    if (s.conns c).handler = .reading ∧ token ∈ s.known then
      if token = s.token then
        some { s.setHandler c (.binding lastSeq codec) with token := s.token + 1 }
      else some s
    else none
  | .bind c =>
    match (s.conns c).handler with
    | .binding lastSeq codec =>
      some { s.setConn c { s.conns c with
          handler := .onlining s.bound lastSeq codec, wasBound := true } with
        bound := some c }
    | _ => none
  | .goOnline c =>
    match (s.conns c).handler with
    | .onlining old lastSeq codec =>
      some { s.setHandler c (.closingOld old lastSeq) with
        st := .stateOnline, down := { s.down with codec := codec } }
    | _ => none
  | .closeOld c =>
    match (s.conns c).handler with
    | .closingOld old lastSeq =>
      match old with
      | none => some (s.setHandler c (.replaying lastSeq))
      | some d => some ((if d = c then s else s.close d).setHandler c (.replaying lastSeq))
    | _ => none
  | .readRing c =>
    match (s.conns c).handler with
    | .replaying lastSeq => some (s.setHandler c (.snapping (since s.down.ring lastSeq).1))
    | _ => none
  | .readSnaps c =>
    match (s.conns c).handler with
    | .snapping frames => some (s.setHandler c (.responding frames (s.down.snaps.all [])))
    | _ => none
  | .respond c accepted => s.respondStep writeCap c accepted
  | .write c accepted => s.writeStep writeCap c accepted
  | .startPump c =>
    if (s.conns c).handler = .writing [] [] then some (s.setHandler c .pumping) else none
  | .hangUp c => s.hangUpStep c
  | .goOffline c =>
    if (s.conns c).handler = .unbinding then
      some { s.setHandler c .leaving with
        st := if s.st = .stateOnline then .stateOffline else s.st }
    else none
  | .closeSelf c =>
    if (s.conns c).handler = .leaving then
      some (s.setConn c { s.conns c with handler := .done, closed := true })
    else none
  | .flush c => some (s.setConn c { s.conns c with queued := (s.conns c).queued - 1 })
  | .other c =>
    if (s.conns c).canAnswer writeCap true true then some (s.setConn c ((s.conns c).hand [] true))
    else none
  | .drop c => some (s.close c)
  | .release => some { s with st := .stateReleased }

end Delivery

/-- A session after `Create`: connection `0` is bound, and the login response comes next. -/
def newDelivery (n : ℕ) (codec : UInt8) (replayCap : ℕ) (hcap : 0 < replayCap) : Delivery n where
  down := newDownlink codec replayCap hcap
  st := .stateOnline
  bound := some 0
  token := 0
  known := []
  conns := fun c => if c = 0 then { handler := .responding [] [], wasBound := true } else {}
  pushers := fun _ => .idle

end RanGame.Session
