import RanGame.Gateway.Inner

/-!
# The link between a Gateway and a Logic node

`nodeConn.Write`, `readEnvelope` and `serveConn` of `internal/gateway/node_transport.go`. Four
places limit the size of a frame: the acceptor has the configured limit; the envelope and
`RemoteConn.Push` have the default one, whatever is configured; a connection of the node's own has
none.
-/

namespace RanGame.Gateway

open Transport List

/-! ### The link -/

def msgUnicast : UInt8 := 1

def msgKeepalive : UInt8 := 3

/-- `nodeConn.Write`: the envelope after its length, of which four bytes are written. -/
def nodeWrite (data : Bytes) : Bytes := toBE 4 data.length ++ data

/-- `Forward`: what one frame puts on the link, with the node it comes from. -/
def forward (localID : Bytes) (inner : InnerHeader) (f : Frame) : Bytes :=
  nodeWrite (encodeInner { inner with gatewayID := localID } f)

/-- What makes a node close a link. -/
inductive LinkError
  | read (e : FrameError)
  /-- `gateway: invalid envelope length %d` -/
  | envelopeLength
  | decodeInner (e : InnerError)
  deriving DecidableEq, Repr

/-- `readEnvelope`, and the stream after it. -/
def readEnvelope (r : Bytes) : Except LinkError ((InnerHeader × Frame) × Bytes) :=
  match readFull 4 r with
  | .error e => .error (.read e)
  | .ok (lenBuf, r) =>
    if ofBE lenBuf = 0 then .error .envelopeLength
    else
      match readFull (ofBE lenBuf) r with
      | .error e => .error (.read e)
      | .ok (payload, r) =>
        match decodeInner payload with
        | .error e => .error (.decodeInner e)
        | .ok env => .ok (env, r)

/-- The loop of `serveConn`, for at most `n` envelopes. -/
def serve : ℕ → Bytes → Option (List (InnerHeader × Frame) × LinkError)
  | 0, _ => none
  | n + 1, r =>
    match readEnvelope r with
    | .error e => some ([], e)
    | .ok (env, r) =>
      (serve n r).map fun p => (if env.1.msgType = msgKeepalive then p.1 else env :: p.1, p.2)

/-- `serveConn`: what a node handles of a stream, and why it closes the link. -/
def serveConn (r : Bytes) : Option (List (InnerHeader × Frame) × LinkError) :=
  serve (r.length + 1) r

variable {r uid nodeID : Bytes} {env : InnerHeader × Frame} {n : ℕ} {f : Frame}
  {inner : InnerHeader}

theorem length_of_readEnvelope {r' : Bytes} (h : readEnvelope r = .ok (env, r')) :
    r'.length < r.length := by
  rw [readEnvelope] at h
  split at h
  · cases h
  next lenBuf r₁ hlen =>
    have h₁ := eq_of_readFull hlen
    split at h
    · cases h
    · split at h
      · cases h
      next payload r₂ hpayload =>
        have h₂ := eq_of_readFull hpayload
        split at h <;> cases h
        · omega

theorem isSome_serve (h : r.length < n) : (serve n r).isSome = true := by
  induction n generalizing r with
  | zero => omega
  | succ n ih =>
    rw [serve]
    split
    · rfl
    next env r' henv =>
      have hlt := length_of_readEnvelope henv
      rw [Option.isSome_map]
      exact ih (by omega)

theorem serve_congr {m : ℕ} (hn : r.length < n) (hm : r.length < m) : serve n r = serve m r := by
  induction n generalizing m r with
  | zero => omega
  | succ n ih =>
    obtain ⟨m, rfl⟩ : ∃ k, m = k + 1 := ⟨m - 1, by omega⟩
    rw [serve, serve]
    split
    · rfl
    next env r' henv =>
      have hlt := length_of_readEnvelope henv
      rw [ih (by omega) (show r'.length < m by omega)]

theorem serveConn_of_readEnvelope {r' : Bytes} (h : readEnvelope r = .ok (env, r'))
    (htype : env.1.msgType ≠ msgKeepalive) :
    serveConn r = (serveConn r').map fun p => (env :: p.1, p.2) := by
  have hrest : serve r.length r' = serveConn r' :=
    serve_congr (length_of_readEnvelope h) (Nat.lt_succ_self r'.length)
  rw [serveConn, serve, h]
  simp only [hrest, if_neg htype]

/-! ### Frames that cross it -/

/-- A frame that the envelope can carry. -/
structure Fits (inner : InnerHeader) (f : Frame) : Prop where
  clean : inner.Clean
  payload : f.payloadLen ≤ defaultMaxFrame
  route : f.route.length ≤ 65535
  /-- The length of the envelope fits into the four bytes before it. -/
  length : (encodeInner inner f).length < 2 ^ 32

theorem encodeFrame_of_le (hroute : f.route.length ≤ 65535) (hpay : f.payloadLen ≤ 0xFFFFFFFF) :
    encodeFrame f = .ok (toBE 4 f.payloadLen ++ encodePayload f.setRouteFlag) := by
  rw [encodeFrame, if_neg (by omega), if_neg (by omega)]

theorem Fits.decodeInner (h : Fits inner f) :
    decodeInner (encodeInner inner f) = .ok (inner, f.setRouteFlag) := by
  have hpay : f.payloadLen ≤ 64 * 1024 := h.payload
  exact decodeInner_encodeInner_of_payloadLen h.clean
    (encodeFrame_of_le h.route (by omega)) h.payload

theorem length_encodeInner_pos (inner : InnerHeader) (f : Frame) :
    0 < (encodeInner inner f).length := by
  rw [encodeInner, length_append, length_cons]
  omega

theorem readEnvelope_nodeWrite {data : Bytes} (hpos : 0 < data.length)
    (hlen : data.length < 2 ^ 32) (rest : Bytes) :
    readEnvelope (nodeWrite data ++ rest) =
      match decodeInner data with
      | .error e => .error (.decodeInner e)
      | .ok env => .ok (env, rest) := by
  have hbe : ofBE (toBE 4 data.length) = data.length :=
    ofBE_toBE_of_lt (by norm_num at hlen ⊢; omega)
  rw [Gateway.readEnvelope, nodeWrite, append_assoc, readFull_append (length_toBE _ _)]
  simp only [hbe, if_neg (Nat.ne_of_gt hpos), readFull_append rfl]

theorem Fits.readEnvelope (h : Fits inner f) (rest : Bytes) :
    readEnvelope (nodeWrite (encodeInner inner f) ++ rest) =
      .ok ((inner, f.setRouteFlag), rest) := by
  rw [readEnvelope_nodeWrite (length_encodeInner_pos inner f) h.length, h.decodeInner]

/-- **Frames in envelopes come out as they went in**, and the link goes on. -/
theorem serve_envelopes {envs : List (InnerHeader × Frame)}
    (h : ∀ env ∈ envs, Fits env.1 env.2 ∧ env.1.msgType ≠ msgKeepalive) (rest : Bytes) :
    ∃ p, serveConn rest = some p ∧
      serveConn ((envs.flatMap fun env => nodeWrite (encodeInner env.1 env.2)) ++ rest) =
        some (envs.map (fun env => (env.1, env.2.setRouteFlag)) ++ p.1, p.2) := by
  induction envs with
  | nil =>
    obtain ⟨p, hp⟩ := Option.isSome_iff_exists.mp (isSome_serve (Nat.lt_succ_self rest.length))
    exact ⟨p, hp, hp⟩
  | cons env envs ih =>
    obtain ⟨hfits, htype⟩ := h env (mem_cons_self ..)
    obtain ⟨p, hp, hrest⟩ := ih fun e he => h e (mem_cons_of_mem _ he)
    refine ⟨p, hp, ?_⟩
    rw [flatMap_cons, append_assoc, serveConn_of_readEnvelope (hfits.readEnvelope _) htype, hrest]
    rfl

/-- A frame above the default limit cannot be read, and takes the link with it. -/
theorem serveConn_of_gt (hclean : inner.Clean) {raw : Bytes} (hf : encodeFrame f = .ok raw)
    (hpay : defaultMaxFrame < f.payloadLen) (hlen : (encodeInner inner f).length < 2 ^ 32)
    (rest : Bytes) : ∃ detail, serveConn (nodeWrite (encodeInner inner f) ++ rest) =
      some ([], .decodeInner (.decodeFrame (.frameTooLarge detail))) := by
  have hlimit : frameLimit 0 < f.payloadLen := hpay
  have hdec := decodeFrame_encodeFrame_of_gt hf hlimit []
  rw [append_nil] at hdec
  have hinner : decodeInner (encodeInner inner f) = .error (.decodeFrame (.frameTooLarge
      (toString f.payloadLen ++ " > " ++ toString (frameLimit 0)))) := by
    simp only [decodeInner, encodeInner, hf, cut_append (newline_not_mem_headerLine hclean),
      splitN_headerLine hclean, parseHeader_decimal, hdec]
  refine ⟨toString f.payloadLen ++ " > " ++ toString (frameLimit 0), ?_⟩
  rw [serveConn, serve, readEnvelope_nodeWrite (length_encodeInner_pos inner f) hlen, hinner]

/-! ### Names -/

/-- A name that the text of an envelope can carry. -/
def Nameable (name : Bytes) : Prop := bar ∉ name ∧ newline ∉ name ∧ name.length < 2 ^ 30

instance (name : Bytes) : Decidable (Nameable name) := by
  unfold Nameable
  infer_instance

/-- The header of a player's frame on its way from one node to another. -/
def unicast (uid nodeID : Bytes) (seq : UInt32) : InnerHeader := ⟨uid, [], nodeID, msgUnicast, seq⟩

theorem clean_unicast (huid : Nameable uid) (hnode : Nameable nodeID) (seq : UInt32) :
    (unicast uid nodeID seq).Clean :=
  (unicast uid nodeID seq).clean_iff.mpr ⟨⟨huid.1, huid.2.1⟩,
    ⟨not_mem_nil, not_mem_nil⟩, hnode.1, hnode.2.1⟩

theorem length_decimal_le (h : n < 10 ^ 10) : (decimal n).length ≤ 10 := by
  rw [decimal]
  split
  · decide
  · rw [length_map, length_reverse]
    exact (Nat.digits_length_le_iff (by norm_num) n).mpr h

theorem length_encodeInner_unicast (huid : Nameable uid) (hnode : Nameable nodeID) (seq : UInt32)
    (hroute : f.route.length ≤ 65535) (hpay : f.payloadLen ≤ 2 ^ 20) :
    (encodeInner (unicast uid nodeID seq) f).length < 2 ^ 32 := by
  have hseq : (decimal seq.toNat).length ≤ 10 := length_decimal_le (by have := seq.toNat_lt; omega)
  have htype : (decimal msgUnicast.toNat).length ≤ 10 := by decide
  have hf := encodeFrame_of_le hroute (show f.payloadLen ≤ 0xFFFFFFFF by omega)
  have hraw := length_of_encodeFrame hf
  have hu := huid.2.2
  have hn := hnode.2.2
  simp only [encodeInner, hf, headerLine, unicast, length_append, length_cons, length_nil] at hraw ⊢
  omega

theorem fits_unicast (huid : Nameable uid) (hnode : Nameable nodeID) (seq : UInt32)
    (hroute : f.route.length ≤ 65535) (hpay : f.payloadLen ≤ defaultMaxFrame) :
    Fits (unicast uid nodeID seq) f where
  clean := clean_unicast huid hnode seq
  payload := hpay
  route := hroute
  length := by
    have hlimit : f.payloadLen ≤ 64 * 1024 := hpay
    exact length_encodeInner_unicast huid hnode seq hroute (by omega)

/-! ### The way up -/

/-- `Read` of a TCP or WebSocket connection returns this frame for some bytes of the client. -/
def Accepted (maxFrameSize : ℤ) (f : Frame) : Prop :=
  ∃ r rest, decodeFrame r maxFrameSize = .ok (f, rest)

/-- A frame that a Gateway forwards for a player. -/
structure Upload where
  uid : Bytes
  seq : UInt32
  frame : Frame
  deriving DecidableEq, Repr

def Upload.wire (nodeID : Bytes) (u : Upload) : Bytes :=
  forward nodeID (unicast u.uid [] u.seq) u.frame

/-- What Logic handles. `EncodeFrame` has set the route flag of the Gateway's frame, too. -/
def Upload.handled (nodeID : Bytes) (u : Upload) : InnerHeader × Frame :=
  (unicast u.uid nodeID u.seq, u.frame.setRouteFlag)

theorem payloadLen_of_accepted {maxFrameSize : ℤ} (hmax : maxFrameSize ≤ defaultMaxFrame)
    (h : Accepted maxFrameSize f) : f.route.length ≤ 65535 ∧ f.payloadLen ≤ defaultMaxFrame := by
  obtain ⟨r, rest, hdec⟩ := h
  obtain ⟨hroute, hpay⟩ := payloadLen_of_decodeFrame hdec
  refine ⟨hroute, hpay.trans ?_⟩
  rw [frameLimit]
  split
  · exact le_rfl
  · omega

/-! ### The way down -/

/-- Why a frame is not sent. -/
inductive SendError
  | errClosed
  | errSlowConsumer
  | frame (e : FrameError)
  deriving DecidableEq, Repr

/-- A TCP or WebSocket connection: whether it is closed, and what waits to be written. -/
structure LocalConn where
  closed : Bool
  writeCh : List Bytes
  capacity : ℕ
  deriving DecidableEq, Repr

/-- `Push` of a TCP or WebSocket connection. A closed one with room left may take the bytes or not;
here it does not. -/
def LocalConn.push (c : LocalConn) (data : Bytes) : Except SendError LocalConn :=
  if c.closed then .error .errClosed
  else if c.writeCh.length < c.capacity then .ok { c with writeCh := c.writeCh ++ [data] }
  else .error .errSlowConsumer

/-- `RemoteConn.Push`: the bytes are read again, and the frame is sent over the link. -/
def RemoteConn.push (closed : Bool) (send : Frame → Except SendError Unit) (data : Bytes) :
    Except SendError Unit :=
  if closed then .error .errClosed
  else
    match decodeFrame data 0 with
    | .error e => .error (.frame e)
    | .ok (f, _) => send f

/-- `ConnSession.Send` over a connection that is bound. -/
def connSend {α : Type} (push : Bytes → Except SendError α) (f : Frame) : Except SendError α :=
  match encodeFrame f with
  | .error e => .error (.frame e)
  | .ok raw => push raw

theorem encodeFrame_of_connSend {α : Type} {push : Bytes → Except SendError α} {a : α}
    (h : connSend push f = .ok a) : ∃ raw, encodeFrame f = .ok raw ∧ push raw = .ok a := by
  rw [connSend] at h
  split at h
  · cases h
  · exact ⟨_, ‹_›, h⟩

theorem connSend_remote {raw : Bytes} (hf : encodeFrame f = .ok raw)
    (hpay : f.payloadLen ≤ defaultMaxFrame) (send : Frame → Except SendError Unit) :
    connSend (RemoteConn.push false send) f = send f.setRouteFlag := by
  have hlimit : f.payloadLen ≤ frameLimit 0 := hpay
  have hdec := decodeFrame_encodeFrame hf hlimit []
  rw [append_nil] at hdec
  simp only [connSend, hf, RemoteConn.push, hdec, Bool.false_eq_true, if_false]

/-! ### Both ways -/

def largeFrame : Frame := ⟨1, 0x1000, 0, 1, [], List.replicate 65536 0⟩

theorem payloadLen_largeFrame : largeFrame.payloadLen = 65546 := by
  have hbody : largeFrame.body.length = 65536 := length_replicate
  rw [Frame.payloadLen, hbody]
  rfl

theorem encodeFrame_largeFrame : ∃ raw, encodeFrame largeFrame = .ok raw :=
  ⟨_, encodeFrame_of_le (by decide) (by rw [payloadLen_largeFrame]; norm_num)⟩

end RanGame.Gateway
