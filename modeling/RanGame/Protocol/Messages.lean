import RanGame.Protocol.JsonCodec
import RanGame.Protocol.RoundTrip
import RanGame.Transport.Frame

/-!
# The two codecs, and the framework's own messages

The registry of `internal/protocol/codec.go`, the messages of `internal/session/messages.go`, and
the response envelope of `internal/protocol/envelope.go`. A frame says in its flag which codec its
body was encoded with. Some callers ignore the error of the decoder and go on with what has been
stored.
-/

namespace RanGame.Protocol

open Json Transport Protowire List

/-! ### Codecs -/

inductive Codec
  | json
  | protobuf
  deriving DecidableEq, Repr

/-- `TypeJSON` and `TypeProtobuf`. -/
def Codec.type : Codec → UInt8
  | .json => 0
  | .protobuf => 1

def Codec.get (typ : UInt8) : Option Codec :=
  if typ = Codec.json.type then some .json
  else if typ = Codec.protobuf.type then some .protobuf
  else none

theorem Codec.type_of_get {typ : UInt8} {c : Codec} (h : Codec.get typ = some c) :
    typ = c.type := by
  unfold Codec.get at h
  split at h
  · cases h
    assumption
  · split at h <;> cases h
    · assumption

def codecOf (f : Frame) : Option Codec := Codec.get f.codecType

theorem codecOf_type {f : Frame} {c : Codec} (h : f.flag = c.type) : codecOf f = some c := by
  rw [codecOf, Frame.codecType, h]
  cases c <;> decide

inductive CodecError
  | json (cause : JsonError)
  | protobuf (cause : ProtoError)
  deriving DecidableEq, Repr

section Codecs

variable {N : Type} (M : N → MessageType)

/-- Message types as the protobuf codec sees them. -/
def schemaOf : Schema N where
  fields n := (M n).fields.map MessageField.decl
  rank _ := 0
  rank_lt := by
    intro n d hd m hm
    obtain ⟨f, -, rfl⟩ := mem_map.mp hd
    cases hkind : f.kind <;> simp [MessageField.decl, FieldKind.goType, hkind] at hm

/-- `unmarshalStruct`, with what it has stored when it fails. -/
def unmarshalKept (S : Schema N) : ℕ → N → Bytes → List Value → List Value × Option ProtoError
  | 0, _, _, vs => (vs, none)
  | k + 1, n, data, vs =>
    if data = [] then (vs, none)
    else
      match unmarshalRecord S (unmarshalLoop S k) n data vs with
      | .error e => (vs, some e)
      | .ok (vs, rest) => unmarshalKept S k n rest vs

def Codec.marshal (c : Codec) (n : N) (vs : List Value) : Except CodecError Bytes :=
  match c with
  | .json => (marshalJSON (M n).fields vs).mapError .json
  | .protobuf => (Protocol.marshal (schemaOf M) (some (.struct n, .struct vs))).mapError .protobuf

/-- `Codec.Unmarshal`: the message after it, and the error. -/
def Codec.unmarshal (c : Codec) (n : N) (data : Bytes) (vs : List Value) :
    List Value × Option CodecError :=
  match c with
  | .json => ((unmarshalJSON (M n).fields data vs).map id (Option.map .json))
  | .protobuf => ((unmarshalKept (schemaOf M) data.length n data vs).map id (Option.map .protobuf))

def Codec.decode (c : Codec) (n : N) (data : Bytes) : List Value × Option CodecError :=
  c.unmarshal M n data (zeros (M n).fields)

variable {M}

theorem unmarshalKept_of_ok {S : Schema N} {k : ℕ} {n : N} {data : Bytes} {vs vs' : List Value}
    (h : unmarshalLoop S k n data vs = .ok vs') : unmarshalKept S k n data vs = (vs', none) := by
  induction k generalizing data vs with
  | zero =>
    cases h
    rfl
  | succ k ih =>
    rw [unmarshalLoop] at h
    rw [unmarshalKept]
    split at h
    next hdata =>
      cases h
      rw [if_pos hdata]
    next hdata =>
      rw [if_neg hdata]
      cases hrec : unmarshalRecord S (unmarshalLoop S k) n data vs with
      | error e =>
        rw [hrec] at h
        cases h
      | ok p =>
        obtain ⟨vs₁, rest⟩ := p
        rw [hrec] at h
        exact ih h

theorem fieldMap_of_untagged {ds : List (FieldDecl N)} (h : ∀ d ∈ ds, d.tag = "") (i : ℕ)
    (m : ℤ → Option ℕ) : fieldMap ds i m = m := by
  induction ds generalizing i with
  | nil => rfl
  | cons d ds ih =>
    rw [fieldMap, if_pos (h d (mem_cons_self ..)),
      ih fun e he => h e (mem_cons_of_mem _ he)]

/-- **Without tags, nothing is decoded from protobuf.** -/
theorem unmarshalKept_of_untagged {S : Schema N} {n : N} (h : ∀ d ∈ S.fields n, d.tag = "")
    (k : ℕ) (data : Bytes) (vs : List Value) : (unmarshalKept S k n data vs).1 = vs := by
  have hfield : ∀ num, fieldIndex (S.fields n) num = none := by
    intro num
    rw [fieldIndex, fieldMap_of_untagged h]
  induction k generalizing data with
  | zero => rfl
  | succ k ih =>
    rw [unmarshalKept]
    split
    · rfl
    · cases hrec : unmarshalRecord S (unmarshalLoop S k) n data vs with
      | error e => rfl
      | ok r =>
        -- every field is unknown, and skipped
        have hsame : r.1 = vs := by
          simp only [unmarshalRecord, hfield] at hrec
          split at hrec
          · cases hrec
          · split at hrec <;> cases hrec
            · rfl
        obtain ⟨vs', rest⟩ := r
        cases hsame
        exact ih rest

theorem marshalStruct_of_untagged {S : Schema N} {ds : List (FieldDecl N)}
    (h : ∀ d ∈ ds, d.tag = "") (vs : List Value) : marshalStruct S ds vs = .ok [] := by
  induction ds generalizing vs with
  | nil => simp only [marshalStruct]
  | cons d ds ih =>
    cases vs with
    | nil => simp only [marshalStruct]
    | cons v vs =>
      rw [marshalStruct, h d (mem_cons_self ..),
        ih fun e he => h e (mem_cons_of_mem _ he)]
      rfl

end Codecs

/-! ### Messages -/

/-- The messages that the handshake, the heartbeat and the responses use. -/
inductive FrameworkMessage
  | loginReq
  | reconnectReq
  | ping
  | pong
  | errorEnvelope
  deriving DecidableEq, Repr

def frameworkFields : FrameworkMessage → List MessageField
  | .loginReq =>
    [⟨"UID", "uid", "bytes,1,opt,name=uid,proto3", .string⟩,
      ⟨"Token", "token,omitempty", "bytes,2,opt,name=token,proto3", .string⟩,
      ⟨"ProtocolVer", "protocol_ver,omitempty", "varint,3,opt,name=protocol_ver,proto3",
        .uint .w32⟩,
      ⟨"Codec", "codec,omitempty", "varint,4,opt,name=codec,proto3", .uint .w32⟩,
      ⟨"Platform", "platform,omitempty", "bytes,5,opt,name=platform,proto3", .string⟩]
  | .reconnectReq =>
    [⟨"ReconnectToken", "reconnect_token", "bytes,1,opt,name=reconnect_token,proto3", .string⟩,
      ⟨"LastReliableSeq", "last_reliable_seq", "varint,2,opt,name=last_reliable_seq,proto3",
        .uint .w32⟩]
  | .ping => [⟨"ClientTS", "client_ts,omitempty", "varint,1,opt,name=client_ts,proto3", .int .w64⟩]
  | .pong =>
    [⟨"ClientTS", "client_ts,omitempty", "varint,1,opt,name=client_ts,proto3", .int .w64⟩,
      ⟨"ServerTS", "server_ts,omitempty", "varint,2,opt,name=server_ts,proto3", .int .w64⟩]
  | .errorEnvelope =>
    [⟨"Seq", "seq", "varint,1,opt,name=seq,proto3", .uint .w32⟩,
      ⟨"Code", "code", "varint,2,opt,name=code,proto3", .uint .w16⟩,
      ⟨"Msg", "msg,omitempty", "bytes,3,opt,name=msg,proto3", .string⟩,
      ⟨"Body", "body,omitempty", "bytes,4,opt,name=body,proto3", .raw⟩]

def framework (n : FrameworkMessage) : MessageType where
  fields := frameworkFields n
  ascii_key := by cases n <;> exact ascii_of_all (by decide)
  nodup := by cases n <;> decide

/-- Protobuf supports all of them. -/
def frameworkSchema : SupportedSchema FrameworkMessage where
  toSchema := schemaOf framework
  supported := by
    intro n
    cases n <;> decide
  nodup := by
    intro n
    cases n <;> decide

def Value.str : Value → Bytes
  | .string s => s
  | _ => []

def Value.num : Value → ℤ
  | .int i => i
  | .uint n => n
  | _ => 0

def fieldAt (vs : List Value) (i : ℕ) : Value := vs.getD i .nil

structure LoginReq where
  uid : Bytes
  token : Bytes
  protocolVer : UInt32
  codec : UInt32
  platform : Bytes
  deriving DecidableEq, Repr

def LoginReq.values (m : LoginReq) : List Value :=
  [.string m.uid, .string m.token, .uint m.protocolVer.toNat, .uint m.codec.toNat,
    .string m.platform]

structure ReconnectReq where
  reconnectToken : Bytes
  lastReliableSeq : UInt32
  deriving DecidableEq, Repr

def ReconnectReq.values (m : ReconnectReq) : List Value :=
  [.string m.reconnectToken, .uint m.lastReliableSeq.toNat]

structure Ping where
  clientTS : Int64
  deriving DecidableEq, Repr

def Ping.values (m : Ping) : List Value := [.int m.clientTS.toInt]

/-! ### Responses -/

/-- The envelope of a response: its sequence number, and `framework.OK` with its text. -/
def envelope (seq : UInt32) (raw : Bytes) : List Value :=
  [.uint seq.toNat, .uint 0, .string (ascii "ok"), rawMessage raw]

/-- `NewOKFrameFor`: a response, of any message type, in its envelope. -/
def newOKFrameFor {N : Type} (M : N → MessageType) (c : Codec) (msgID seq : UInt32) (n : N)
    (resp : List Value) : Except CodecError Frame :=
  match c.marshal M n resp with
  | .error e => .error e
  | .ok raw =>
    match c.marshal framework .errorEnvelope (envelope seq raw) with
    | .error e => .error e
    | .ok body => .ok { ver := protocolVer, msgID, flag := c.type, seq, route := [], body }

def decodeEnvelope (f : Frame) : Option (List Value) :=
  match codecOf f with
  | none => none
  | some c =>
    match c.decode framework .errorEnvelope f.body with
    | (vs, none) => some vs
    | (_, some _) => none

/-- The response in a frame: take it out of its envelope, and decode it. -/
def decodeResponse (f : Frame) (n : FrameworkMessage) : Option (List Value) :=
  match codecOf f, decodeEnvelope f with
  | some c, some env => some (c.decode framework n (rawText (fieldAt env 3))).1
  | _, _ => none

/-! A response comes out of its envelope as it was. -/

section Envelope

variable {N : Type} {M : N → MessageType} {n : N} {resp : List Value} {raw : Bytes}

theorem envelope_json (seq : UInt32) (h : ∀ depth, Written (depth + 1) raw)
    (hplain : ∀ b ∈ raw, isPlain b = true) :
    ∃ body, Codec.json.marshal framework .errorEnvelope (envelope seq raw) = .ok body ∧
      Codec.json.decode framework .errorEnvelope body = (envelope seq raw, none) := by
  have hsend : AllSendable (framework .errorEnvelope).fields (envelope seq raw) := by
    refine .cons (.inl (.uint ?_)) (.cons (.inl (.uint (by decide))) (.cons (.inl (.string _))
      (.cons (.inl (.raw h hplain)) .nil)))
    exact seq.toNat_lt
  obtain ⟨body, hwrite, hread⟩ := unmarshalJSON_marshalJSON hsend
  refine ⟨body, ?_, ?_⟩
  · simp only [Codec.marshal, hwrite]
    rfl
  · simp only [Codec.decode, Codec.unmarshal, hread]
    rfl

theorem marshalStruct_cons {S : Schema N} {d : FieldDecl N} {ds : List (FieldDecl N)} {v : Value}
    {vs : List Value} {t : ProtoTag} {b bs : Bytes} (htag : parseProtoTag d.tag = .ok t)
    (hd : (d.tag = "" || !d.exported) = false) (hone : marshalOne S t d.ty v = .ok b)
    (hrest : marshalStruct S ds vs = .ok bs) :
    marshalStruct S (d :: ds) (v :: vs) = .ok (b ++ bs) := by
  rw [marshalOne] at hone
  rw [marshalStruct, hd]
  simp only [Bool.false_eq_true, if_false, htag, hone, hrest]
  rfl

theorem exists_marshalOne {S : Schema N} {num : ℤ} {ft : FieldType} {ty : GoType N} {v : Value}
    {w : WireType} {payload : Bytes}
    (h : marshalSingleValue S num ft ty v = .ok (appendTag (number num) w ++ payload)) :
    ∃ b, marshalOne S ⟨ft, num, false⟩ ty v = .ok b ∧ b.length ≤ payload.length + 10 := by
  have htag := length_appendTag (number num) w
  simp only [marshalOne, Bool.false_eq_true, if_false]
  split
  · exact ⟨[], rfl, Nat.zero_le _⟩
  · refine ⟨_, h, ?_⟩
    rw [length_append]
    omega

theorem length_appendBytes (s : Bytes) : (appendBytes s).length ≤ s.length + 10 := by
  have hlen := length_appendVarint s.length
  rw [appendBytes, length_append]
  omega

theorem exists_envelope_protobuf (seq : UInt32) (raw : Bytes) :
    ∃ body, marshalStruct (schemaOf framework) ((schemaOf framework).fields .errorEnvelope)
      (envelope seq raw) = .ok body ∧ body.length ≤ raw.length + 100 := by
  have hseq : marshalSingleValue (schemaOf framework) 1 .varint (.uint .w32) (.uint seq.toNat) =
      .ok (appendTag (number 1) .varint ++ appendVarint seq.toNat) := rfl
  have hcode : marshalSingleValue (schemaOf framework) 2 .varint (.uint .w16) (.uint 0) =
      .ok (appendTag (number 2) .varint ++ appendVarint 0) := rfl
  have hmsg : marshalSingleValue (schemaOf framework) 3 .bytes .string (.string (ascii "ok")) =
      .ok (appendTag (number 3) .bytes ++ appendBytes (ascii "ok")) := rfl
  have hbody : marshalSingleValue (schemaOf framework) 4 .bytes (.slice (.uint .w8))
      (rawMessage raw) =
        .ok (appendTag (number 4) .bytes ++ appendBytes (rawText (rawMessage raw))) := rfl
  rw [rawText_rawMessage] at hbody
  obtain ⟨b₁, h₁, hlen₁⟩ := exists_marshalOne hseq
  obtain ⟨b₂, h₂, hlen₂⟩ := exists_marshalOne hcode
  obtain ⟨b₃, h₃, hlen₃⟩ := exists_marshalOne hmsg
  obtain ⟨b₄, h₄, hlen₄⟩ := exists_marshalOne hbody
  have hnil : marshalStruct (schemaOf framework) [] [] = .ok [] := by rw [marshalStruct]; simp
  refine ⟨b₁ ++ (b₂ ++ (b₃ ++ (b₄ ++ []))), ?_, ?_⟩
  · exact marshalStruct_cons (by decide) (by decide) h₁ (marshalStruct_cons (by decide) (by decide)
      h₂ (marshalStruct_cons (by decide) (by decide) h₃ (marshalStruct_cons (by decide) (by decide)
        h₄ hnil)))
  · have hpay₁ := length_appendVarint seq.toNat
    have hpay₂ := length_appendVarint 0
    have hpay₃ := length_appendBytes (ascii "ok")
    have hpay₄ := length_appendBytes raw
    have hok : (ascii "ok").length = 2 := rfl
    simp only [length_append, length_nil]
    omega

theorem elemsConform_bytes (S : Schema N) (s : Bytes) :
    S.elemsConform (.uint .w8) (s.map fun b => .uint b.toNat) = true := by
  induction s with
  | nil => rfl
  | cons b s ih =>
    have hb : b.toNat < 2 ^ IntSize.w8.bits := b.toNat_lt
    simp only [map_cons, Schema.elemsConform, Schema.conforms, Value.isNil, ih,
      decide_eq_true hb]
    rfl

theorem envelope_protobuf (seq : UInt32) {raw : Bytes} (h : raw.length < 2 ^ 63) :
    ∃ body, Codec.protobuf.marshal framework .errorEnvelope (envelope seq raw) = .ok body ∧
      Codec.protobuf.decode framework .errorEnvelope body = (envelope seq raw, none) := by
  have hconform : (schemaOf framework).fieldsConform ((schemaOf framework).fields .errorEnvelope)
      (envelope seq raw) = true := by
    have hseq : seq.toNat < 2 ^ IntSize.w32.bits := seq.toNat_lt
    have hbody : (schemaOf framework).conforms (.slice (.uint .w8)) (rawMessage raw) = true :=
      elemsConform_bytes _ raw
    simp only [schemaOf, framework, frameworkFields, map_cons, map_nil, envelope,
      MessageField.decl, FieldKind.goType, Schema.fieldsConform] at hbody ⊢
    rw [hbody]
    simp only [Schema.conforms, decide_eq_true hseq]
    rfl
  obtain ⟨body, hwrite, hread⟩ := exists_unmarshalStruct frameworkSchema
    (fun n => by cases n <;> decide) hconform
  obtain ⟨body', hwrite', hlen⟩ := exists_envelope_protobuf seq raw
  obtain rfl : body' = body := by
    rw [show frameworkSchema.toSchema = schemaOf framework from rfl, hwrite'] at hwrite
    exact Except.ok.inj hwrite
  refine ⟨body', ?_, ?_⟩
  · simp only [Codec.marshal, Protocol.marshal, Option.bind_some, derefs, hwrite']
    rfl
  · have hkept := unmarshalKept_of_ok (hread (by omega))
    have hzeros : frameworkSchema.zeros (frameworkSchema.fields .errorEnvelope) =
        zeros (framework .errorEnvelope).fields := rfl
    rw [hzeros] at hkept
    simp only [Codec.decode, Codec.unmarshal]
    rw [show schemaOf framework = frameworkSchema.toSchema from rfl, hkept]
    rfl

theorem exists_okFrame {c : Codec} {seq : UInt32} {body : Bytes} (msgID : UInt32)
    (hraw : c.marshal M n resp = .ok raw)
    (hbody : c.marshal framework .errorEnvelope (envelope seq raw) = .ok body)
    (hdecode : c.decode framework .errorEnvelope body = (envelope seq raw, none)) :
    ∃ f, newOKFrameFor M c msgID seq n resp = .ok f ∧
      ∀ n', decodeResponse f n' = some (c.decode framework n' raw).1 := by
  refine ⟨{ ver := protocolVer, msgID, flag := c.type, seq, route := [], body }, ?_, fun n' => ?_⟩
  · simp only [newOKFrameFor, hraw, hbody]
  have hcodec : codecOf { ver := protocolVer, msgID, flag := c.type, seq, route := [], body } =
      some c := codecOf_type rfl
  have htext : rawText (fieldAt (envelope seq raw) 3) = raw := rawText_rawMessage raw
  simp only [decodeResponse, decodeEnvelope, hcodec, hdecode, htext]

end Envelope

end RanGame.Protocol
