import RanGame.Protocol.Messages

/-!
# What the Gateway reads of a handshake

The Gateway (`internal/app/gateway_connector.go`) decodes logins, tokens and pings into types of its
own, without protobuf tags. So it agrees with Logic on JSON logins and tokens only: in pings it
looks for `ClientTS` where the client writes `client_ts`.
-/

namespace RanGame.App

namespace Extraction

open Json Protocol Transport List

/-! ### The Gateway -/

/-- The types that the Gateway decodes into, and the one it encodes a pong from. -/
inductive GatewayMessage
  | login
  | reconnect
  | ping
  | pong
  deriving DecidableEq, Repr

def gatewayFields : GatewayMessage → List MessageField
  | .login => [⟨"UID", "uid", "", .string⟩]
  | .reconnect => [⟨"ReconnectToken", "reconnect_token", "", .string⟩]
  | .ping => [⟨"ClientTS", "", "", .int .w64⟩]
  | .pong => [⟨"ClientTS", "", "", .int .w64⟩, ⟨"ServerTS", "", "", .int .w64⟩]

def gateway (n : GatewayMessage) : MessageType where
  fields := gatewayFields n
  ascii_key := by cases n <;> exact ascii_of_all (by decide)
  nodup := by cases n <;> decide

/-- The first field of a message, decoded into one of the Gateway's types. -/
def readFirst (c : Codec) (n : GatewayMessage) (body : Bytes) : Value :=
  fieldAt (c.decode gateway n body).1 0

def parseUIDFromLoginReq (f : Frame) : Bytes :=
  match codecOf f with
  | none => []
  | some c => (readFirst c .login f.body).str

/-- The part of a token before its first colon, if there is one. -/
def nodeOfToken (token : Bytes) : Option Bytes :=
  match cut 58 token with
  | some (node, _) => if node = [] then none else some node
  | none => none

def parseNodeIDFromToken (f : Frame) : Option Bytes :=
  match codecOf f with
  | none => none
  | some c => nodeOfToken (readFirst c .reconnect f.body).str

def msgPong : UInt32 := 0x0002

/-- The timestamp that `replyPong` reads. -/
def gatewayPing (c : Codec) (f : Frame) : ℤ := (readFirst c .ping f.body).num

/-- `replyPong`, at time `now`: the answer, if there is one. -/
def replyPong (now : Int64) (f : Frame) : Option Frame :=
  match codecOf f with
  | none => none
  | some c =>
    (newOKFrameFor gateway c msgPong f.seq .pong [.int (gatewayPing c f), .int now.toInt]).toOption

/-! ### Logic -/

/-- A body, decoded into one of the framework's messages. -/
def decodeAs (n : FrameworkMessage) (f : Frame) : Option (List Value) :=
  match codecOf f with
  | none => none
  | some c =>
    match c.decode framework n f.body with
    | (vs, none) => some vs
    | (_, some _) => none

def decodeLoginReq (f : Frame) : Option Bytes :=
  (decodeAs .loginReq f).map fun vs => (fieldAt vs 0).str

def decodeReconnectReq (f : Frame) : Option Bytes :=
  (decodeAs .reconnectReq f).map fun vs => (fieldAt vs 0).str

def stripNodeIDPrefix (token nodeID : Bytes) : Bytes :=
  let front := nodeID ++ [58]
  if token.length > front.length ∧ token.take front.length = front then token.drop front.length
  else token

/-- The timestamp that `handlePing` finds. Errors are ignored. -/
def decodePing (f : Frame) : Option ℤ :=
  (codecOf f).map fun c => (fieldAt (c.decode framework .ping f.body).1 0).num

/-! ### JSON -/

section Json

variable {f : Frame}

theorem readFirst_json (n : GatewayMessage) (n' : FrameworkMessage) {d d' : MessageField}
    (hd : (gateway n).fields[0]? = some d) (hd' : (framework n').fields[0]? = some d')
    (hkey : d.key = d'.key) (hkind : d.kind = d'.kind) (body : Bytes) :
    readFirst .json n body = fieldAt (Codec.json.decode framework n' body).1 0 := by
  have hzero : (zeros (gateway n).fields)[0]? = (zeros (framework n').fields)[0]? := by
    simp only [zeros, getElem?_map, hd, hd', Option.map_some, hkind]
  have hagree := unmarshalJSON_agree hd hd' hkey hkind body hzero
  simp only [readFirst, fieldAt, getD_eq_getElem?_getD, Codec.decode, Codec.unmarshal,
    Prod.map]
  exact congrArg (Option.getD · Value.nil) hagree

theorem exists_of_decodeAs {n : FrameworkMessage} {c : Codec} (hc : codecOf f = some c)
    {vs : List Value} (h : decodeAs n f = some vs) : vs = (c.decode framework n f.body).1 := by
  simp only [decodeAs, hc] at h
  split at h <;> cases h
  next hdecode => rw [hdecode]

/-- **Any login in JSON gives the Gateway and Logic the same uid.** -/
theorem parseUIDFromLoginReq_json (hc : codecOf f = some .json) {uid : Bytes}
    (h : decodeLoginReq f = some uid) : parseUIDFromLoginReq f = uid := by
  obtain ⟨vs, hvs, rfl⟩ := Option.map_eq_some_iff.mp h
  rw [exists_of_decodeAs hc hvs]
  simp only [parseUIDFromLoginReq, hc,
    readFirst_json .login .loginReq rfl rfl (by decide) rfl f.body]

/-- **Any reconnect in JSON gives the Gateway and Logic the same token.** -/
theorem parseNodeIDFromToken_json (hc : codecOf f = some .json) {token : Bytes}
    (h : decodeReconnectReq f = some token) : parseNodeIDFromToken f = nodeOfToken token := by
  obtain ⟨vs, hvs, rfl⟩ := Option.map_eq_some_iff.mp h
  rw [exists_of_decodeAs hc hvs]
  simp only [parseNodeIDFromToken, hc,
    readFirst_json .reconnect .reconnectReq rfl rfl (by decide) rfl f.body]

theorem nodeOfToken_of_strip {token nodeID : Bytes} (hne : nodeID ≠ []) (hcolon : 58 ∉ nodeID)
    (h : stripNodeIDPrefix token nodeID ≠ token) : nodeOfToken token = some nodeID := by
  simp only [stripNodeIDPrefix] at h
  split at h
  next hfront =>
    have htoken : token = nodeID ++ 58 :: token.drop (nodeID ++ [58]).length := by
      conv_lhs => rw [← take_append_drop (nodeID ++ [58]).length token, hfront.2]
      simp
    rw [htoken, nodeOfToken, cut_append hcolon]
    exact if_neg hne
  · exact absurd rfl h

theorem exists_decodeAs_json {n : FrameworkMessage} {vs : List Value}
    (h : AllSendable (framework n).fields vs) :
    ∃ body, Codec.json.marshal framework n vs = .ok body ∧
      ∀ f : Frame, codecOf f = some .json → f.body = body →
        decodeAs n f = some (vs.map Value.coerced) := by
  obtain ⟨body, hwrite, hread⟩ := unmarshalJSON_marshalJSON h
  refine ⟨body, ?_, ?_⟩
  · simp only [Codec.marshal, hwrite]
    rfl
  · rintro f hc rfl
    simp only [decodeAs, hc, Codec.decode, Codec.unmarshal, hread]
    rfl

theorem sendable_uint32 (n : UInt32) : Sendable (.uint .w32) (.uint n.toNat) := .uint n.toNat_lt

theorem allSendable_loginReq (m : LoginReq) : AllSendable (framework .loginReq).fields m.values :=
  .cons (.inl (.string _)) (.cons (.inl (.string _)) (.cons (.inl (sendable_uint32 _))
    (.cons (.inl (sendable_uint32 _)) (.cons (.inl (.string _)) .nil))))

theorem allSendable_reconnectReq (m : ReconnectReq) :
    AllSendable (framework .reconnectReq).fields m.values :=
  .cons (.inl (.string _)) (.cons (.inl (sendable_uint32 _)) .nil)

end Json

theorem untagged_gateway (n : GatewayMessage) : ∀ d ∈ (schemaOf gateway).fields n, d.tag = "" := by
  cases n <;> decide

theorem decode_protobuf_gateway (n : GatewayMessage) (body : Bytes) :
    (Codec.protobuf.decode gateway n body).1 = zeros (gateway n).fields :=
  unmarshalKept_of_untagged (untagged_gateway n) _ _ _

/-- **The Gateway reads no uid from protobuf.** -/
theorem parseUIDFromLoginReq_protobuf {f : Frame} (hc : codecOf f = some .protobuf) :
    parseUIDFromLoginReq f = [] := by
  simp only [parseUIDFromLoginReq, hc, readFirst, decode_protobuf_gateway]
  rfl

/-! ### The heartbeat -/

/-- The text of the Gateway's pong. -/
def pongMembers (client server : ℤ) : List (Bytes × Bytes) :=
  [(ascii "ClientTS", signedDecimal client), (ascii "ServerTS", signedDecimal server)]

theorem marshal_pong_json (client server : ℤ) :
    Codec.json.marshal gateway .pong [.int client, .int server] =
      .ok (printMembers (pongMembers client server)) := rfl

theorem marshal_pong_protobuf (client server : ℤ) :
    Codec.protobuf.marshal gateway .pong [.int client, .int server] = .ok [] := by
  simp only [Codec.marshal, Protocol.marshal, Option.bind_some, derefs,
    marshalStruct_of_untagged (untagged_gateway .pong)]
  rfl

theorem written_pongMembers (client server : ℤ) (depth : ℕ) :
    ∀ m ∈ pongMembers client server, Written depth m.2 :=
  forall_mem_cons.mpr ⟨written_signedDecimal _ _,
    forall_mem_singleton.mpr (written_signedDecimal _ _)⟩

theorem isPlain_pongMembers (client server : ℤ) :
    ∀ b ∈ printMembers (pongMembers client server), isPlain b = true := by
  have hmember : ∀ (key : Bytes) (i : ℤ), (∀ b ∈ quote key, isPlain b = true) →
      ∀ b ∈ printMember (key, signedDecimal i), isPlain b = true := fun key i hkey =>
    forall_mem_append.mpr ⟨hkey, forall_mem_cons.mpr ⟨rfl, isPlain_signedDecimal i⟩⟩
  exact isPlain_printMembers (forall_mem_cons.mpr
    ⟨hmember _ _ (all_eq_true.mp (by decide)),
      forall_mem_singleton.mpr (hmember _ _ (all_eq_true.mp (by decide)))⟩)

theorem decode_pong_json (client server : ℤ) :
    (Codec.json.decode framework .pong (printMembers (pongMembers client server))).1 =
      [.int 0, .int 0] := by
  have hclient : fieldOf (framework .pong).fields (coerce (ascii "ClientTS")) = none := by decide
  have hserver : fieldOf (framework .pong).fields (coerce (ascii "ServerTS")) = none := by decide
  have hread := unmarshalJSON_printMembers (framework .pong).fields
    (written_pongMembers client server innerDepth) (zeros (framework .pong).fields)
  simp only [Codec.decode, Codec.unmarshal, hread]
  simp only [pongMembers, map_cons, map_nil, storeMembers, storeMember, hclient, hserver]
  rfl

/-- **The client reads zero from every pong of the Gateway.** -/
theorem decodeResponse_replyPong {f : Frame} {c : Codec} (hc : codecOf f = some c) (now : Int64) :
    ∃ pong, replyPong now f = some pong ∧ decodeResponse pong .pong = some [.int 0, .int 0] := by
  have hframe : ∃ pong, newOKFrameFor gateway c msgPong f.seq .pong
      [.int (gatewayPing c f), .int now.toInt] = .ok pong ∧
        decodeResponse pong .pong = some [.int 0, .int 0] := by
    cases c with
    | json =>
      obtain ⟨body, hbody, hdecode⟩ := envelope_json f.seq
        (fun depth => written_object (written_pongMembers _ _ depth)) (isPlain_pongMembers _ _)
      obtain ⟨pong, hpong, hread⟩ := exists_okFrame msgPong (marshal_pong_json _ _) hbody hdecode
      exact ⟨pong, hpong, (hread .pong).trans (congrArg some (decode_pong_json _ _))⟩
    | protobuf =>
      obtain ⟨body, hbody, hdecode⟩ := envelope_protobuf f.seq
        (show ([] : Bytes).length < 2 ^ 63 by decide)
      obtain ⟨pong, hpong, hread⟩ :=
        exists_okFrame msgPong (marshal_pong_protobuf _ _) hbody hdecode
      exact ⟨pong, hpong, hread .pong⟩
  obtain ⟨pong, hpong, hread⟩ := hframe
  refine ⟨pong, ?_, hread⟩
  simp only [replyPong, hc, hpong]
  rfl

/-! ### What both agree on -/

def frameOf (c : Codec) (msgID : UInt32) (body : Bytes) : Frame :=
  { ver := protocolVer, msgID, flag := c.type, seq := 1, route := [], body }

def aliceLogin : LoginReq := ⟨ascii "alice", [], 0, 0, []⟩

def aliceReconnect : ReconnectReq := ⟨ascii "n1:t", 0⟩

def loginText : Bytes := ascii "\x7b\"uid\":\"alice\"\x7d"

def reconnectText : Bytes := ascii "\x7b\"reconnect_token\":\"n1:t\",\"last_reliable_seq\":0\x7d"

def protobufLogin : Frame := frameOf .protobuf 0x0010 [10, 5, 97, 108, 105, 99, 101]

theorem parseUIDFromLoginReq_protobuf_alice : parseUIDFromLoginReq protobufLogin = [] :=
  parseUIDFromLoginReq_protobuf (codecOf_type rfl)

def protobufReconnect : Frame := frameOf .protobuf 0x0011 [10, 4, 110, 49, 58, 116]

def pingAtSeven : Frame := frameOf .json 0x0001 (ascii "\x7b\"client_ts\":7\x7d")

end Extraction

end RanGame.App
