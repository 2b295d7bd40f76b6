import RanGame.Transport.Frame

/-!
# The Gateway–Logic envelope

`EncodeInner` and `DecodeInner` of `internal/gateway/gateway.go`: a frame between a Gateway and a
Logic node is preceded by the line `uid|sessionID|gatewayID|msgType|forwardSeq`. The three strings
must contain neither a newline nor a bar, which nothing checks; `UID` is what a client sent in its
login request.
-/

namespace RanGame.Gateway

open Transport

/-- The header of the internal link; a client never sees it. -/
structure InnerHeader where
  uid : Bytes
  sessionID : Bytes
  gatewayID : Bytes
  /-- Unicast, room broadcast or keepalive. -/
  msgType : UInt8
  forwardSeq : UInt32
  deriving DecidableEq, Repr

inductive InnerError
  /-- `gateway: inner header truncated` -/
  | truncated
  /-- `gateway: parse inner: want 5 fields, got %d` -/
  | fieldCount (got : ℕ)
  /-- `gateway: parse inner: bad msgtype %q: %w` -/
  | badMsgType (text : Bytes) (e : NumError)
  /-- `gateway: parse inner: bad seq %q: %w` -/
  | badSeq (text : Bytes) (e : NumError)
  /-- `gateway: decode frame: %w` -/
  | decodeFrame (e : FrameError)
  deriving DecidableEq, Repr

def bar : UInt8 := 124

def newline : UInt8 := 10

/-- The header line, without its newline. -/
def headerLine (inner : InnerHeader) : Bytes :=
  inner.uid ++ bar :: (inner.sessionID ++ bar :: (inner.gatewayID ++ bar ::
    (decimal inner.msgType.toNat ++ bar :: decimal inner.forwardSeq.toNat)))

/-- `EncodeInner`. A frame that does not encode contributes no bytes: the error is dropped. -/
def encodeInner (inner : InnerHeader) (f : Frame) : Bytes :=
  headerLine inner ++ newline ::
    match encodeFrame f with
    | .ok raw => raw
    | .error _ => []

/-- The header fields, once the line has been cut at its first four bars. -/
def parseHeader : List Bytes → Except InnerError InnerHeader
  | [uid, sessionID, gatewayID, msgType, forwardSeq] =>
    match atoi msgType with
    | .error e => .error (.badMsgType msgType e)
    | .ok mt =>
      match atoi forwardSeq with
      | .error e => .error (.badSeq forwardSeq e)
      | .ok seq => .ok ⟨uid, sessionID, gatewayID, UInt8.ofInt mt, UInt32.ofInt seq⟩
  | parts => .error (.fieldCount parts.length)

def decodeInner (data : Bytes) : Except InnerError (InnerHeader × Frame) :=
  match cut newline data with
  | none => .error .truncated
  | some (line, rest) =>
    match parseHeader (splitN bar 5 line) with
    | .error e => .error e
    | .ok inner =>
      match decodeFrame rest 0 with
      | .error e => .error (.decodeFrame e)
      | .ok (f, _) => .ok (inner, f)

/-- The strings of a header the text format can carry. -/
def InnerHeader.Clean (inner : InnerHeader) : Prop :=
  ∀ s ∈ [inner.uid, inner.sessionID, inner.gatewayID], bar ∉ s ∧ newline ∉ s

instance (inner : InnerHeader) : Decidable inner.Clean := by
  unfold InnerHeader.Clean
  infer_instance

theorem InnerHeader.clean_iff (inner : InnerHeader) :
    inner.Clean ↔ (bar ∉ inner.uid ∧ newline ∉ inner.uid) ∧
      (bar ∉ inner.sessionID ∧ newline ∉ inner.sessionID) ∧
      bar ∉ inner.gatewayID ∧ newline ∉ inner.gatewayID := by
  simp [InnerHeader.Clean]

variable {inner : InnerHeader} {f : Frame}

theorem newline_not_mem_headerLine (h : inner.Clean) : newline ∉ headerLine inner := by
  obtain ⟨⟨_, hu⟩, ⟨_, hs⟩, _, hg⟩ := inner.clean_iff.mp h
  have hne : newline ≠ bar := by decide
  have hdec : ∀ n, newline ∉ decimal n := not_mem_decimal (by decide)
  simp [headerLine, hu, hs, hg, hne, hdec]

theorem splitN_headerLine (h : inner.Clean) : splitN bar 5 (headerLine inner) =
      [inner.uid, inner.sessionID, inner.gatewayID, decimal inner.msgType.toNat,
        decimal inner.forwardSeq.toNat] := by
  obtain ⟨⟨hu, _⟩, ⟨hs, _⟩, hg, _⟩ := inner.clean_iff.mp h
  have hdec : bar ∉ decimal inner.msgType.toNat := not_mem_decimal (by decide) _
  rw [headerLine, splitN_append hu, splitN_append hs, splitN_append hg, splitN_append hdec, splitN]

theorem parseHeader_decimal (inner : InnerHeader) :
    parseHeader [inner.uid, inner.sessionID, inner.gatewayID, decimal inner.msgType.toNat,
      decimal inner.forwardSeq.toNat] = .ok inner := by
  have h8 : inner.msgType.toNat < 2 ^ 8 := inner.msgType.toNat_lt
  have h32 : inner.forwardSeq.toNat < 2 ^ 32 := inner.forwardSeq.toNat_lt
  have hmt : UInt8.ofInt inner.msgType.toNat = inner.msgType := by
    rw [UInt8.ofInt, Int.emod_eq_of_lt (by omega) (by omega), Int.toNat_natCast, UInt8.ofNat_toNat]
  have hseq : UInt32.ofInt inner.forwardSeq.toNat = inner.forwardSeq := by
    rw [UInt32.ofInt, Int.emod_eq_of_lt (by omega) (by omega), Int.toNat_natCast,
      UInt32.ofNat_toNat]
  simp only [parseHeader, atoi_decimal (show inner.msgType.toNat < 2 ^ 63 by omega),
    atoi_decimal (show inner.forwardSeq.toNat < 2 ^ 63 by omega), hmt, hseq]

theorem decodeInner_encodeInner_of_payloadLen (hclean : inner.Clean) {raw : Bytes}
    (hf : encodeFrame f = .ok raw) (hpay : f.payloadLen ≤ defaultMaxFrame) :
    decodeInner (encodeInner inner f) = .ok (inner, f.setRouteFlag) := by
  have hlimit : f.payloadLen ≤ frameLimit 0 := hpay
  have hdec : decodeFrame raw 0 = .ok (f.setRouteFlag, []) := by
    simpa using decodeFrame_encodeFrame hf hlimit []
  simp only [decodeInner, encodeInner, hf, cut_append (newline_not_mem_headerLine hclean),
    splitN_headerLine hclean, parseHeader_decimal, hdec]

/-! ### What a successful decoding says about the line -/

theorem parts_of_parseHeader {parts : List Bytes} (h : parseHeader parts = .ok inner) :
    ∃ mt seq, parts = [inner.uid, inner.sessionID, inner.gatewayID, mt, seq] := by
  unfold parseHeader at h
  split at h
  next uid sessionID gatewayID mt seq =>
    refine ⟨mt, seq, ?_⟩
    split at h
    · simp at h
    · split at h
      · simp at h
      · obtain rfl := by simpa using h
        rfl
  · simp at h

theorem line_of_parseHeader {line : Bytes} (h : parseHeader (splitN bar 5 line) = .ok inner) :
    ∃ tail,
      line = inner.uid ++ bar :: (inner.sessionID ++ bar :: (inner.gatewayID ++ bar :: tail)) ∧
      bar ∉ inner.uid ∧ bar ∉ inner.sessionID ∧ bar ∉ inner.gatewayID := by
  obtain ⟨mt, seq, hparts⟩ := parts_of_parseHeader h
  obtain ⟨l₁, rfl, hu, h₁⟩ := splitN_eq_cons hparts (by simp)
  obtain ⟨l₂, rfl, hs, h₂⟩ := splitN_eq_cons h₁ (by simp)
  obtain ⟨l₃, rfl, hg, _⟩ := splitN_eq_cons h₂ (by simp)
  exact ⟨l₃, rfl, hu, hs, hg⟩

/-- A header from the decoder is clean: line and parts were cut at the first newline and bars. -/
theorem clean_of_decodeInner {data : Bytes} (h : decodeInner data = .ok (inner, f)) :
    inner.Clean := by
  rw [decodeInner] at h
  split at h
  · simp at h
  next line rest hcut =>
    obtain ⟨-, hnl⟩ := cut_eq_some hcut
    split at h
    · simp at h
    next inner' hparse =>
      obtain rfl : inner' = inner := by
        split at h
        · simp at h
        · exact (by simpa using h : inner' = inner ∧ _).1
      obtain ⟨tail, rfl, hu, hs, hg⟩ := line_of_parseHeader hparse
      simp only [List.mem_append, List.mem_cons, not_or] at hnl
      exact inner'.clean_iff.mpr ⟨⟨hu, hnl.1⟩, ⟨hs, hnl.2.2.1⟩, hg, hnl.2.2.2.2.1⟩

/-- **The envelope carries exactly the clean headers**, for a frame of at most 64 KiB. -/
theorem decodeInner_encodeInner_iff (inner : InnerHeader) {f : Frame} {raw : Bytes}
    (hf : encodeFrame f = .ok raw) (hlen : raw.length ≤ 64 * 1024) :
    decodeInner (encodeInner inner f) = .ok (inner, f.setRouteFlag) ↔ inner.Clean := by
  refine ⟨clean_of_decodeInner, fun hclean => decodeInner_encodeInner_of_payloadLen hclean hf ?_⟩
  have := length_of_encodeFrame hf
  have hlimit : defaultMaxFrame = 64 * 1024 := rfl
  omega

/-- The header and frame of the repository's own round-trip test. -/
theorem decodeInner_encodeInner_alice :
    decodeInner (encodeInner ⟨[97, 108, 105, 99, 101], [115, 52, 50], [103, 119], 1, 42⟩
        ⟨1, 0x1000, 1, 42, [], [0x08, 0x01]⟩)
      = .ok (⟨[97, 108, 105, 99, 101], [115, 52, 50], [103, 119], 1, 42⟩,
        ⟨1, 0x1000, 1, 42, [], [0x08, 0x01]⟩) :=
  (decodeInner_encodeInner_iff _ rfl (by decide)).mpr (by decide)

/-- A player `a|b` cannot be named on the link: the Gateway's name is read as the message type. -/
theorem decodeInner_encodeInner_bar : ∃ (inner : InnerHeader) (f : Frame) (raw : Bytes),
      encodeFrame f = .ok raw ∧ raw.length ≤ 64 * 1024 ∧
        decodeInner (encodeInner inner f) = .error (.badMsgType [103] .badSyntax) ∧
        decodeInner (encodeInner inner f) ≠ .ok (inner, f.setRouteFlag) :=
  ⟨⟨[97, 124, 98], [115], [103], 1, 7⟩, ⟨1, 0x10, 1, 7, [], []⟩, _, rfl, by decide, by decide,
    by decide⟩

end RanGame.Gateway
