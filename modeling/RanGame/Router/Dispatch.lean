import RanGame.Actor.Process
import RanGame.Protocol.Messages

/-!
# The message router

`internal/router/router.go`, with the middlewares of `middleware.go` and the error frames of
`internal/protocol/envelope.go`. `Dispatch` decodes a frame, has it pass authentication and rate
limit, looks up the actor and puts an envelope into its mailbox; what is rejected on the way is
answered with an error frame, in the codec of the request. If there is no such codec, the answer is
dropped. The envelope for a player's actor is a closure that runs the handler and answers for it.
-/

namespace RanGame.Router

open Protocol Transport Actor Json

/-! ### Errors -/

/-- `defaultMessages` -/
def message : UInt16 → String
  | 0 => "ok"
  | 1001 => "unknown message id"
  | 1002 => "decode failed"
  | 1003 => "frame too large"
  | 2001 => "unauthorized"
  | 2002 => "reconnect token invalid"
  | 2003 => "rate limited"
  | 2004 => "kicked"
  | 3001 => "not in room"
  | 3002 => "room is full"
  | 3003 => "game already started"
  | 3004 => "already in match queue"
  | 4001 => "internal error"
  | 4002 => "server overloaded"
  | 4003 => "storage degraded, try later"
  | 4005 => "server under maintenance"
  | _ => ""

structure ErrCode where
  code : UInt16
  msg : Bytes

def newErr (code : UInt16) (msg : Bytes) : ErrCode :=
  ⟨code, if msg = [] then ascii (message code) else msg⟩

/-- `NewErrorFrameFor`, without a body. -/
def newErrorFrameFor (typ : UInt8) (msgID seq : UInt32) (ec : ErrCode) : Option Frame :=
  match Codec.get typ with
  | none => none
  | some c =>
    let msg := if ec.msg = [] then ascii (message ec.code) else ec.msg
    match c.marshal framework .errorEnvelope
      [.uint seq.toNat, .uint ec.code.toNat, .string msg, FieldKind.raw.zero] with
    | .error _ => none
    | .ok body => some { ver := protocolVer, msgID, flag := typ, seq, route := [], body }

/-- `sendError`: what is passed to `Send`. -/
def sendError (f : Frame) (ec : ErrCode) : List Frame :=
  (newErrorFrameFor f.codecType f.msgID f.seq ec).toList

def tellErrToCode : TellErr → ErrCode
  | .errDropped => newErr 4002 []
  | .errKicked => newErr 2004 []
  | .errActorNotFound => newErr 2001 []
  | .errShuttingDown => newErr 4005 []

/-- An error of a handler: one with a code, or any other. -/
inductive HandlerErr
  | code (ec : ErrCode)
  | other (text : Bytes)

def asErrCode : HandlerErr → ErrCode
  | .code ec => ec
  | .other text => newErr 4001 text

/-! ### Routes -/

inductive Target
  | player
  | room

/-- `routeEntry`. Where a callback gives `none` it panics. -/
structure RouteEntry (Req N : Type) where
  target : Target
  factory : Option Req
  unmarshal : Codec → Bytes → Req → Option (Except Bytes Req)
  handler : Req → Option (Except HandlerErr (Option (N × List Value)))

/-- The router, the session and the actors, as a frame finds them. -/
structure State (Req N : Type) where
  routes : UInt32 → Option (RouteEntry Req N)
  authFree : UInt32 → Bool
  authenticated : Bool
  allowed : Bool
  resolvePlayer : Option ℕ
  resolveRoom : Option ℕ
  tell : ℕ → Option TellErr

variable {Req N : Type} (r : State Req N) (M : N → MessageType)

/-- Authentication, rate limit, and the actor that the message is for. -/
def State.preChain (entry : RouteEntry Req N) (msgID : UInt32) : Except ErrCode ℕ :=
  if !r.authFree msgID && !r.authenticated then .error (newErr 2001 [])
  else if !r.allowed then .error (newErr 2003 [])
  else
    match entry.target with
    | .player => r.resolvePlayer.elim (.error (newErr 2001 [])) .ok
    | .room => r.resolveRoom.elim (.error (newErr 3001 [])) .ok

/-- The payload of an envelope: the closure that runs the handler, or the request. -/
inductive Payload (Req N : Type)
  | invoke (entry : RouteEntry Req N) (req : Req)
  | request (req : Req)

/-- What comes of a frame: it is rejected with these frames, or in a mailbox. -/
inductive Dispatched (Req N : Type)
  | rejected (sent : List Frame)
  | told (id : ℕ) (payload : Payload Req N)

/-- The request in a frame. An empty body is not decoded. -/
def RouteEntry.read (entry : RouteEntry Req N) (c : Codec) (body : Bytes) :
    Option (Except Bytes Req) :=
  entry.factory.bind fun req => if body = [] then some (.ok req) else entry.unmarshal c body req

def State.dispatch (f : Frame) : Dispatched Req N :=
  match r.routes f.msgID with
  | none => .rejected (sendError f (newErr 1001 []))
  | some entry =>
    match Codec.get f.codecType with
    | none => .rejected (sendError f (newErr 1001 (ascii "codec not supported")))
    | some c =>
      match entry.read c f.body with
      | none => .rejected (sendError f (newErr 4001 []))
      | some (.error e) => .rejected (sendError f (newErr 1002 e))
      | some (.ok req) =>
        match r.preChain entry f.msgID with
        | .error ec => .rejected (sendError f ec)
        | .ok id =>
          match r.tell id, entry.target with
          | some e, _ => .rejected (sendError f (tellErrToCode e))
          | none, .player => .told id (.invoke entry req)
          | none, .room => .told id (.request req)

/-- What is sent for the request when the envelope is handled. -/
def Payload.replies (f : Frame) : Payload Req N → List Frame
  | .request _ => []
  | .invoke entry req =>
    match entry.handler req with
    | none => sendError f (newErr 4001 (ascii "handler panic"))
    | some (.error e) => sendError f (asErrCode e)
    | some (.ok none) => []
    | some (.ok (some (n, resp))) =>
      match Codec.get f.codecType with
      | none => []
      | some c => (newOKFrameFor M c f.msgID f.seq n resp).toOption.toList

/-! ### One answer -/

theorem code_tellErrToCode (e : TellErr) : (tellErrToCode e).code ≠ 0 := by
  cases e <;> decide

/-- What is said of an error can be encoded with either codec. -/
theorem exists_marshal_envelope (c : Codec) (seq : UInt32) (code : UInt16) (msg : Bytes) :
    ∃ body, c.marshal framework .errorEnvelope
      [.uint seq.toNat, .uint code.toNat, .string msg, FieldKind.raw.zero] = .ok body := by
  have hseq : seq.toNat < 2 ^ IntSize.w32.bits := seq.toNat_lt
  have hcode : code.toNat < 2 ^ IntSize.w16.bits := code.toNat_lt
  cases c with
  | json =>
    have hsend : AllSendable (framework .errorEnvelope).fields
        [.uint seq.toNat, .uint code.toNat, .string msg, FieldKind.raw.zero] :=
      .cons (.inl (.uint hseq)) (.cons (.inl (.uint hcode))
        (.cons (.inl (.string msg)) (.cons (.inr ⟨rfl, rfl⟩) .nil)))
    obtain ⟨body, hwrite, -⟩ := unmarshalJSON_marshalJSON hsend
    refine ⟨body, ?_⟩
    simp only [Codec.marshal, hwrite]
    rfl
  | protobuf =>
    have hconform : (schemaOf framework).fieldsConform ((schemaOf framework).fields .errorEnvelope)
        [.uint seq.toNat, .uint code.toNat, .string msg, FieldKind.raw.zero] = true := by
      simp only [schemaOf, framework, frameworkFields, List.map_cons, List.map_nil,
        MessageField.decl, FieldKind.goType, Schema.fieldsConform, Schema.conforms,
        decide_eq_true hseq, decide_eq_true hcode]
      rfl
    obtain ⟨body, hwrite, -⟩ := exists_unmarshalStruct frameworkSchema
      (fun n => by cases n <;> decide) hconform
    refine ⟨body, ?_⟩
    rw [show frameworkSchema.toSchema = schemaOf framework from rfl] at hwrite
    simp only [Codec.marshal, Protocol.marshal, Option.bind_some, derefs, hwrite]
    rfl

/-- `e` answers the request `f`. -/
def Answers (f e : Frame) : Prop := e.msgID = f.msgID ∧ e.seq = f.seq

theorem preChain_error {r : State Req N} {entry : RouteEntry Req N} {msgID : UInt32} {ec : ErrCode}
    (h : r.preChain entry msgID = .error ec) : ec.code ≠ 0 := by
  unfold State.preChain at h
  split at h
  · cases h
    decide
  split at h
  · cases h
    decide
  cases hp : r.resolvePlayer <;> cases hr : r.resolveRoom <;> cases ht : entry.target <;>
    simp only [hp, hr, ht, Option.elim] at h <;> cases h <;> decide

/-- A frame is rejected with an error, or it is in a mailbox. -/
theorem State.dispatch_cases (f : Frame) :
    (∃ ec, ec.code ≠ 0 ∧ r.dispatch f = .rejected (sendError f ec)) ∨
      ∃ id p, r.dispatch f = .told id p := by
  unfold State.dispatch
  split
  · exact .inl ⟨_, by decide, rfl⟩
  split
  · exact .inl ⟨_, by decide, rfl⟩
  split
  · exact .inl ⟨_, by decide, rfl⟩
  · exact .inl ⟨_, show (1002 : UInt16) ≠ 0 by decide, rfl⟩
  split
  next hpre => exact .inl ⟨_, preChain_error hpre, rfl⟩
  split
  · exact .inl ⟨_, code_tellErrToCode _, rfl⟩
  · exact .inr ⟨_, _, rfl⟩
  · exact .inr ⟨_, _, rfl⟩

section Codecs

variable {r M} {f : Frame} {c : Codec} (hc : codecOf f = some c)

include hc

theorem exists_sendError (ec : ErrCode) :
    ∃ e, newErrorFrameFor f.codecType f.msgID f.seq ec = some e ∧ sendError f ec = [e] ∧
      Answers f e := by
  rw [codecOf] at hc
  obtain ⟨body, hbody⟩ := exists_marshal_envelope c f.seq ec.code
    (if ec.msg = [] then ascii (message ec.code) else ec.msg)
  have hframe : newErrorFrameFor f.codecType f.msgID f.seq ec =
      some { ver := protocolVer, msgID := f.msgID, flag := f.codecType, seq := f.seq,
             route := [], body } := by
    simp only [newErrorFrameFor, hc, hbody]
  refine ⟨_, hframe, ?_, rfl, rfl⟩
  rw [sendError, hframe]
  rfl

theorem replies_le_one (p : Payload Req N) :
    (p.replies M f).length ≤ 1 ∧ ∀ e ∈ p.replies M f, Answers f e := by
  have herr : ∀ ec, (sendError f ec).length ≤ 1 ∧ ∀ e ∈ sendError f ec, Answers f e := by
    intro ec
    obtain ⟨e, -, hsent, he⟩ := exists_sendError hc ec
    simp [hsent, he]
  unfold Payload.replies
  split
  · simp
  split
  · exact herr _
  · exact herr _
  · simp
  next n resp _ =>
    rw [codecOf] at hc
    simp only [hc, newOKFrameFor]
    split
    · simp [Except.toOption]
    · split
      · simp [Except.toOption]
      · simp [Except.toOption, Answers]

end Codecs

def pinged : State Unit FrameworkMessage where
  routes
    | 1 => some ⟨.player, some (), fun _ _ _ => some (.ok ()),
        fun _ => some (.ok (some (.pong, [.int 0, .int 0])))⟩
    | _ => none
  authFree _ := true
  authenticated := false
  allowed := true
  resolvePlayer := some 7
  resolveRoom := none
  tell _ := none

/-- An empty message with sequence number 9. -/
def message9 (msgID : UInt32) (flag : UInt8) : Frame :=
  { ver := protocolVer, msgID, flag, seq := 9, route := [], body := [] }

end RanGame.Router
