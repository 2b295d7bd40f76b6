import RanGame.Lib.Bytes

/-!
# The application frame

The frame format of `internal/transport/frame.go`:

```
len(4B) | ver(1B) | msgID(4B) | flag(1B) | seq(4B) | [routeLen(2B) | route] | body
```

`len` counts everything after itself. Bit 7 of `flag` says whether a route is present; `EncodeFrame`
sets or clears it, writing through its pointer argument (`Frame.setRouteFlag`). A reader is the list
of the bytes it will still deliver. `readFull` keeps the distinction Go makes between a stream that
ends before the first byte and one that ends inside a field.
-/

namespace RanGame.Transport

open List

structure Frame where
  ver : UInt8
  msgID : UInt32
  /-- Codec in the low four bits, then compression, ack, snapshot and route bits. -/
  flag : UInt8
  seq : UInt32
  /-- Debug route; empty in production. -/
  route : Bytes
  body : Bytes
  deriving DecidableEq, Repr

/-- What reading or writing a frame can fail with. -/
inductive FrameError
  /-- The stream ended before the first byte of a field. -/
  | eof
  /-- The stream ended inside a field. -/
  | unexpectedEOF
  /-- `ErrBadFrame`, with its detail. -/
  | badFrame (detail : String)
  /-- `ErrFrameTooLarge`, with its detail. -/
  | frameTooLarge (detail : String)
  deriving DecidableEq, Repr

def protocolVer : UInt8 := 1

/-- The codec bits of a flag. -/
def flagCodecMask : UInt8 := 0x0F

/-- Bit 6: a snapshot message. -/
def flagSnapshot : UInt8 := 0x40

/-- Bit 7: the frame carries a route. -/
def flagRoute : UInt8 := 0x80

/-- The frame limit used when none is configured. -/
def defaultMaxFrame : ℕ := 64 * 1024

/-- `ver`, `msgID`, `flag` and `seq`. -/
def headerFixedLen : ℕ := 10

/-- The width of the route length. -/
def routeLenSize : ℕ := 2

/-- `CodecType`: how the body is encoded. -/
def Frame.codecType (f : Frame) : UInt8 := f.flag &&& flagCodecMask

def Frame.isSnapshot (f : Frame) : Bool := f.flag &&& flagSnapshot != 0

/-- The flag of `EncodeFrame`: bit 7 is set exactly when there is a route. -/
def Frame.setRouteFlag (f : Frame) : Frame :=
  { f with flag := if f.route = [] then f.flag &&& ~~~flagRoute else f.flag ||| flagRoute }

/-- The number of bytes after `len`. -/
def Frame.payloadLen (f : Frame) : ℕ :=
  headerFixedLen + f.body.length + if f.route = [] then 0 else routeLenSize + f.route.length

/-- Everything after `len`. -/
def encodePayload (f : Frame) : Bytes :=
  f.ver :: (toBE 4 f.msgID.toNat ++ f.flag :: (toBE 4 f.seq.toNat ++
    ((if f.route = [] then [] else toBE 2 f.route.length ++ f.route) ++ f.body)))

def encodeFrame (f : Frame) : Except FrameError Bytes :=
  if f.route.length > 65535 then .error (.badFrame "route too long")
  else if f.payloadLen > 0xFFFFFFFF then .error (.frameTooLarge "payload overflow")
  else .ok (toBE 4 f.payloadLen ++ encodePayload f.setRouteFlag)

/-! ### Reading -/

/-- `io.ReadFull` of `n` bytes. -/
def readFull (n : ℕ) (r : Bytes) : Except FrameError (Bytes × Bytes) :=
  if n ≤ r.length then .ok (r.take n, r.drop n)
  else if r = [] then .error .eof
  else .error .unexpectedEOF

/-- The route and body that follow the fixed header. -/
def decodeRouteBody (flag : UInt8) (rest : Bytes) : Except FrameError (Bytes × Bytes) :=
  if 0 < rest.length then
    if flag &&& flagRoute ≠ 0 then
      if rest.length < routeLenSize then .error (.badFrame "truncated route length")
      else if ofBE (rest.take 2) > rest.length - routeLenSize then
        .error (.badFrame "truncated route")
      else .ok ((rest.drop 2).take (ofBE (rest.take 2)), (rest.drop 2).drop (ofBE (rest.take 2)))
    else .ok ([], rest)
  else if flag &&& flagRoute ≠ 0 then .error (.badFrame "route flag set but no payload")
  else .ok ([], [])

/-- Parse the bytes after `len`, of which there are at least `headerFixedLen`. -/
def decodePayload (payload : Bytes) : Except FrameError Frame :=
  match decodeRouteBody (payload.getD 5 0) (payload.drop 10) with
  | .error e => .error e
  | .ok (route, body) =>
    .ok {
      ver := payload.getD 0 0
      msgID := UInt32.ofNat (ofBE ((payload.drop 1).take 4))
      flag := payload.getD 5 0
      seq := UInt32.ofNat (ofBE ((payload.drop 6).take 4))
      route := route
      body := body }

/-- The limit in force for a configured `maxFrameSize`. -/
def frameLimit (maxFrameSize : ℤ) : ℕ :=
  if maxFrameSize ≤ 0 then defaultMaxFrame else maxFrameSize.toNat

/-- `DecodeFrame`: one frame off the front of the stream, and the stream after it. -/
def decodeFrame (r : Bytes) (maxFrameSize : ℤ) : Except FrameError (Frame × Bytes) :=
  match readFull 4 r with
  | .error e => .error e
  | .ok (lenBuf, r) =>
    if ofBE lenBuf < headerFixedLen then
      .error (.badFrame ("payload length " ++ toString (ofBE lenBuf) ++ " < header"))
    else if ofBE lenBuf > frameLimit maxFrameSize then
      .error (.frameTooLarge
        (toString (ofBE lenBuf) ++ " > " ++ toString (frameLimit maxFrameSize)))
    else
      match readFull (ofBE lenBuf) r with
      | .error e => .error e
      | .ok (payload, r) =>
        match decodePayload payload with
        | .error e => .error e
        | .ok f => .ok (f, r)

/-! ### The route flag -/

theorem and_not_flagRoute (x : UInt8) : (x &&& ~~~flagRoute) &&& flagRoute = 0 := by
  rw [UInt8.and_assoc, UInt8.not_and_self, UInt8.and_zero]

/-- A fact about the bits of a flag, for each of its 256 values. -/
theorem forall_flag {P : UInt8 → Prop} (h : ∀ x : BitVec 8, P ⟨x⟩) (x : UInt8) : P x := h x.toBitVec

theorem or_flagRoute (x : UInt8) : (x ||| flagRoute) &&& flagRoute ≠ 0 :=
  forall_flag (P := fun x => (x ||| flagRoute) &&& flagRoute ≠ 0) (by decide +kernel) x

theorem or_flagRoute_of_ne (x : UInt8) : x &&& flagRoute ≠ 0 → x ||| flagRoute = x :=
  forall_flag (P := fun x => x &&& flagRoute ≠ 0 → x ||| flagRoute = x) (by decide +kernel) x

theorem and_not_flagRoute_of_eq (x : UInt8) : x &&& flagRoute = 0 → x &&& ~~~flagRoute = x :=
  forall_flag (P := fun x => x &&& flagRoute = 0 → x &&& ~~~flagRoute = x) (by decide +kernel) x

theorem and_flagCodecMask (x : UInt8) :
    (x &&& ~~~flagRoute) &&& flagCodecMask = x &&& flagCodecMask ∧
    (x ||| flagRoute) &&& flagCodecMask = x &&& flagCodecMask :=
  forall_flag (P := fun x => (x &&& ~~~flagRoute) &&& flagCodecMask = x &&& flagCodecMask ∧
    (x ||| flagRoute) &&& flagCodecMask = x &&& flagCodecMask) (by decide +kernel) x

@[simp] theorem setRouteFlag_route (f : Frame) : f.setRouteFlag.route = f.route := rfl

theorem setRouteFlag_flag_and (f : Frame) :
    f.setRouteFlag.flag &&& flagRoute ≠ 0 ↔ f.route ≠ [] := by
  by_cases h : f.route = []
  · simp [Frame.setRouteFlag, h, and_not_flagRoute]
  · simp [Frame.setRouteFlag, h, or_flagRoute]

theorem codecType_setRouteFlag (f : Frame) : f.setRouteFlag.codecType = f.codecType := by
  rw [Frame.codecType, Frame.setRouteFlag]
  split
  · exact (and_flagCodecMask f.flag).1
  · exact (and_flagCodecMask f.flag).2

/-! ### Round trip -/

theorem length_encodePayload (f : Frame) : (encodePayload f).length = f.payloadLen := by
  by_cases h : f.route = []
  · simp [encodePayload, Frame.payloadLen, h, headerFixedLen]; omega
  · simp [encodePayload, Frame.payloadLen, h, headerFixedLen, routeLenSize]; omega

theorem decodeRouteBody_encode {flag : UInt8} {route : Bytes} (body : Bytes)
    (hlen : route.length ≤ 65535) (hflag : flag &&& flagRoute ≠ 0 ↔ route ≠ []) :
    decodeRouteBody flag ((if route = [] then [] else toBE 2 route.length ++ route) ++ body)
      = .ok (route, body) := by
  by_cases hr : route = []
  · have h0 : flag &&& flagRoute = 0 := by
      by_contra hne
      exact hflag.mp hne hr
    cases body with
    | nil | cons b body => simp [decodeRouteBody, hr, h0]
  · have h1 : flag &&& flagRoute ≠ 0 := hflag.mpr hr
    have hbe : ofBE (toBE 2 route.length) = route.length := ofBE_toBE_of_lt (by norm_num; omega)
    have htake : (toBE 2 route.length ++ route ++ body).take 2 = toBE 2 route.length := by
      rw [append_assoc, take_left' (length_toBE _ _)]
    have hdrop : (toBE 2 route.length ++ route ++ body).drop 2 = route ++ body := by
      rw [append_assoc, drop_left' (length_toBE _ _)]
    have hlen2 : (toBE 2 route.length ++ route ++ body).length =
        2 + route.length + body.length := by simp [Nat.add_assoc]
    rw [if_neg hr, decodeRouteBody, if_pos (by omega), if_pos h1, htake, hdrop, hbe,
      if_neg (by rw [hlen2, routeLenSize]; omega), if_neg (by rw [hlen2, routeLenSize]; omega)]
    simp

theorem ofNat_ofBE_toBE (x : UInt32) : UInt32.ofNat (ofBE (toBE 4 x.toNat)) = x := by
  rw [ofBE_toBE_of_lt (by have := x.toNat_lt; norm_num; omega), UInt32.ofNat_toNat]

theorem decodePayload_eq (f : Frame) (rest : Bytes) :
    decodePayload (f.ver :: (toBE 4 f.msgID.toNat ++ f.flag :: (toBE 4 f.seq.toNat ++ rest)))
      = (decodeRouteBody f.flag rest).map fun p => { f with route := p.1, body := p.2 } := by
  have hm := ofNat_ofBE_toBE f.msgID
  have hs := ofNat_ofBE_toBE f.seq
  simp only [toBE] at hm hs
  simp only [decodePayload, toBE, cons_append, nil_append, getD_cons_zero,
    getD_cons_succ, drop_succ_cons, drop_zero, take_succ_cons, take_zero,
    hm, hs]
  cases decodeRouteBody f.flag rest with
  | error e | ok p => rfl

variable {f : Frame} {raw : Bytes} {maxFrameSize : ℤ}

theorem decodePayload_encodePayload (hlen : f.route.length ≤ 65535) :
    decodePayload (encodePayload f.setRouteFlag) = .ok f.setRouteFlag := by
  have hbody := decodeRouteBody_encode f.setRouteFlag.body hlen (setRouteFlag_flag_and f)
  rw [encodePayload, decodePayload_eq, setRouteFlag_route, hbody]
  rfl

theorem readFull_append {n : ℕ} {a : Bytes} (h : a.length = n) (b : Bytes) :
    readFull n (a ++ b) = .ok (a, b) := by
  rw [readFull, if_pos (by simp [h]), take_left' h, drop_left' h]

section

variable (h : encodeFrame f = .ok raw)

include h

theorem encodeFrame_eq_ok : f.route.length ≤ 65535 ∧ f.payloadLen ≤ 0xFFFFFFFF ∧
      raw = toBE 4 f.payloadLen ++ encodePayload f.setRouteFlag := by
  rw [encodeFrame] at h
  split at h
  · simp at h
  · split at h
    · simp at h
    · exact ⟨by omega, by omega, (by simpa using h : _ = raw).symm⟩

theorem length_of_encodeFrame : raw.length = 4 + f.payloadLen := by
  obtain ⟨_, _, rfl⟩ := encodeFrame_eq_ok h
  rw [length_append, length_toBE, length_encodePayload]
  rfl

/-- **A frame is read back from the front of any stream**, up to the route flag, and the rest is
left. -/
theorem decodeFrame_encodeFrame (hmax : f.payloadLen ≤ frameLimit maxFrameSize) (rest : Bytes) :
    decodeFrame (raw ++ rest) maxFrameSize = .ok (f.setRouteFlag, rest) := by
  obtain ⟨hroute, hpay, rfl⟩ := encodeFrame_eq_ok h
  have hbe : ofBE (toBE 4 f.payloadLen) = f.payloadLen := ofBE_toBE_of_lt (by norm_num; omega)
  have hge : ¬ f.payloadLen < headerFixedLen := by rw [Frame.payloadLen]; omega
  have hplen : (encodePayload f.setRouteFlag).length = f.payloadLen :=
    length_encodePayload f.setRouteFlag
  rw [decodeFrame, append_assoc, readFull_append (length_toBE _ _)]
  simp only [hbe, if_neg hge, if_neg (Nat.not_lt.mpr hmax), readFull_append hplen,
    decodePayload_encodePayload hroute]

theorem decodeFrame_encodeFrame_of_gt (hmax : frameLimit maxFrameSize < f.payloadLen) (rest : Bytes)
    :
    decodeFrame (raw ++ rest) maxFrameSize = .error (.frameTooLarge
        (toString f.payloadLen ++ " > " ++ toString (frameLimit maxFrameSize))) := by
  obtain ⟨-, hpay, rfl⟩ := encodeFrame_eq_ok h
  have hbe : ofBE (toBE 4 f.payloadLen) = f.payloadLen := ofBE_toBE_of_lt (by norm_num; omega)
  have hge : ¬ f.payloadLen < headerFixedLen := by rw [Frame.payloadLen]; omega
  rw [decodeFrame, append_assoc, readFull_append (length_toBE _ _)]
  simp only [hbe, if_neg hge, if_pos hmax]

end

/-! ### Encoding again -/

theorem setRouteFlag_setRouteFlag (f : Frame) : f.setRouteFlag.setRouteFlag = f.setRouteFlag := by
  by_cases hroute : f.route = []
  · simp only [Frame.setRouteFlag, hroute, if_true, UInt8.and_assoc, UInt8.and_self]
  · simp only [Frame.setRouteFlag, hroute, if_false, UInt8.or_assoc, UInt8.or_self]

theorem encodeFrame_setRouteFlag (f : Frame) : encodeFrame f.setRouteFlag = encodeFrame f := by
  rw [encodeFrame, setRouteFlag_setRouteFlag]
  rfl

/-- The payload that a frame was read from: it had a route if the flag says so. -/
def Frame.received (f : Frame) : Bytes :=
  f.ver :: (toBE 4 f.msgID.toNat ++ f.flag :: (toBE 4 f.seq.toNat ++
    ((if f.flag &&& flagRoute = 0 then [] else toBE 2 f.route.length ++ f.route) ++ f.body)))

/-- What has been read: a flag without the route bit comes without a route. -/
structure Frame.Read (f : Frame) : Prop where
  length_le : f.route.length ≤ 65535
  plain : f.flag &&& flagRoute = 0 → f.route = []

theorem eq_of_decodeRouteBody {flag : UInt8} {rest route body : Bytes}
    (h : decodeRouteBody flag rest = .ok (route, body)) :
    route.length ≤ 65535 ∧ (flag &&& flagRoute = 0 → route = []) ∧
      rest = (if flag &&& flagRoute = 0 then [] else toBE 2 route.length ++ route) ++ body := by
  rw [decodeRouteBody] at h
  split at h
  · split at h
    next hflag =>
      split at h
      · cases h
      split at h
      · cases h
      rename_i htwo hlen
      obtain ⟨rfl, rfl⟩ := Prod.mk.inj (Except.ok.inj h)
      have htake : (rest.take 2).length = 2 := by
        rw [length_take]
        exact Nat.min_eq_left (Nat.not_lt.mp htwo)
      have hlt := ofBE_lt (rest.take 2)
      rw [htake] at hlt
      have hroute : ((rest.drop 2).take (ofBE (rest.take 2))).length = ofBE (rest.take 2) := by
        rw [length_take, length_drop]
        exact Nat.min_eq_left (Nat.not_lt.mp hlen)
      have hback := toBE_ofBE (rest.take 2)
      rw [htake] at hback
      refine ⟨by omega, fun h0 => absurd h0 hflag, ?_⟩
      rw [if_neg hflag, hroute, hback, append_assoc, take_append_drop, take_append_drop]
    next hflag =>
      obtain ⟨rfl, rfl⟩ := Prod.mk.inj (Except.ok.inj h)
      simp [not_not.mp hflag]
  next hrest =>
    split at h
    · cases h
    next hflag =>
      obtain ⟨rfl, rfl⟩ := Prod.mk.inj (Except.ok.inj h)
      simpa [not_not.mp hflag] using hrest

theorem toBE_ofNat (bs : Bytes) (h : bs.length = 4) :
    toBE 4 (UInt32.ofNat (ofBE bs)).toNat = bs := by
  have hlt := ofBE_lt bs
  have hback := toBE_ofBE bs
  rw [h] at hlt hback
  rwa [UInt32.toNat_ofNat_of_lt' hlt]

theorem eq_received {payload : Bytes} (h : decodePayload payload = .ok f)
    (hmin : headerFixedLen ≤ payload.length) : f.Read ∧ payload = f.received := by
  rw [decodePayload] at h
  split at h
  · cases h
  rename_i route body hbody
  obtain ⟨hroute, hplain, hrest⟩ := eq_of_decodeRouteBody hbody
  obtain rfl := Except.ok.inj h
  refine ⟨⟨hroute, hplain⟩, ?_⟩
  obtain ⟨b₀, b₁, b₂, b₃, b₄, b₅, b₆, b₇, b₈, b₉, rest, rfl⟩ : ∃ b₀ b₁ b₂ b₃ b₄ b₅ b₆ b₇ b₈ b₉ rest,
      payload = b₀ :: b₁ :: b₂ :: b₃ :: b₄ :: b₅ :: b₆ :: b₇ :: b₈ :: b₉ :: rest := by
    match payload, hmin with
    | _ :: _ :: _ :: _ :: _ :: _ :: _ :: _ :: _ :: _ :: _, _ =>
      exact ⟨_, _, _, _, _, _, _, _, _, _, _, rfl⟩
  have hmsgID := toBE_ofNat [b₁, b₂, b₃, b₄] rfl
  have hseq := toBE_ofNat [b₆, b₇, b₈, b₉] rfl
  simp only [getD_cons_succ, getD_cons_zero, drop_succ_cons, drop_zero] at hrest
  simp only [Frame.received, getD_cons_succ, getD_cons_zero, drop_succ_cons, drop_zero,
    take_succ_cons, take_zero, hmsgID, hseq, ← hrest]
  rfl

theorem payloadLen_le_received (h : f.Read) : f.payloadLen ≤ f.received.length := by
  have := h.plain
  simp only [Frame.payloadLen, Frame.received, headerFixedLen, routeLenSize]
  split <;> split <;> simp_all <;> omega

theorem eq_of_readFull {n : ℕ} {r a b : Bytes} (h : readFull n r = .ok (a, b)) :
    a.length = n ∧ n + b.length = r.length ∧ r = a ++ b := by
  rw [readFull] at h
  split at h
  next hn =>
    obtain ⟨rfl, rfl⟩ : r.take n = a ∧ r.drop n = b := by simpa using h
    rw [length_take, length_drop, take_append_drop]
    exact ⟨Nat.min_eq_left hn, Nat.add_sub_cancel' hn, rfl⟩
  · split at h <;> cases h

/-- **What a stream has delivered**: the length, and the payload that the frame was read from. -/
theorem eq_of_decodeFrame {r rest : Bytes} (h : decodeFrame r maxFrameSize = .ok (f, rest)) :
    f.Read ∧ f.received.length ≤ frameLimit maxFrameSize ∧ f.received.length < 256 ^ 4 ∧
      r = toBE 4 f.received.length ++ f.received ++ rest := by
  rw [decodeFrame] at h
  split at h
  · cases h
  rename_i lenBuf r₁ hlen
  split at h
  · cases h
  split at h
  · cases h
  rename_i hmin hmax
  split at h
  · cases h
  rename_i payload r₂ hread
  split at h
  · cases h
  rename_i f' hpayload
  obtain ⟨rfl, rfl⟩ := Prod.mk.inj (Except.ok.inj h)
  obtain ⟨hlen₁, -, rfl⟩ := eq_of_readFull hlen
  obtain ⟨hlen₂, -, rfl⟩ := eq_of_readFull hread
  obtain ⟨hf, rfl⟩ := eq_received hpayload (by omega)
  have hlt := ofBE_lt lenBuf
  have hback := toBE_ofBE lenBuf
  rw [hlen₁] at hlt hback
  rw [hlen₂]
  exact ⟨hf, by omega, hlt, by rw [hback, append_assoc]⟩

theorem payloadLen_of_decodeFrame {r rest : Bytes}
    (h : decodeFrame r maxFrameSize = .ok (f, rest)) :
    f.route.length ≤ 65535 ∧ f.payloadLen ≤ frameLimit maxFrameSize := by
  obtain ⟨hread, hmax, -, -⟩ := eq_of_decodeFrame h
  exact ⟨hread.length_le, (payloadLen_le_received hread).trans hmax⟩

/-- **A relayed frame stays the same.** What was decoded can be encoded, and is decoded to itself,
with the route bit cleared if there is no route. The bytes are those that were read, unless they had
the route bit and an empty route. -/
theorem relay_of_decodeFrame {r rest : Bytes} (h : decodeFrame r maxFrameSize = .ok (f, rest)) :
    ∃ used raw g, r = used ++ rest ∧ encodeFrame f = .ok raw ∧
      decodeFrame raw maxFrameSize = .ok (g, []) ∧
      g = { f with flag := if f.route = [] then f.flag &&& ~~~flagRoute else f.flag } ∧
      g.codecType = f.codecType ∧
      (¬ (f.flag &&& flagRoute ≠ 0 ∧ f.route = []) → raw = used) := by
  obtain ⟨hread, hmax, hlt, rfl⟩ := eq_of_decodeFrame h
  have hle := payloadLen_le_received hread
  have henc : encodeFrame f = .ok (toBE 4 f.payloadLen ++ encodePayload f.setRouteFlag) := by
    rw [encodeFrame, if_neg (Nat.not_lt.mpr hread.length_le), if_neg (by omega)]
  refine ⟨_, _, f.setRouteFlag, rfl, henc, ?_, ?_, codecType_setRouteFlag f, fun hcanon => ?_⟩
  · have := decodeFrame_encodeFrame henc (hle.trans hmax) []
    rwa [append_nil] at this
  · rw [Frame.setRouteFlag]
    split
    · rfl
    next hroute => rw [or_flagRoute_of_ne _ (mt hread.plain hroute)]
  · have hroute : f.route = [] ↔ f.flag &&& flagRoute = 0 :=
      ⟨fun hr => not_not.mp fun h0 => hcanon ⟨h0, hr⟩, hread.plain⟩
    have hflag : f.setRouteFlag = f := by
      rw [Frame.setRouteFlag]
      split <;> rename_i hr
      · rw [and_not_flagRoute_of_eq _ (hroute.mp hr)]
      · rw [or_flagRoute_of_ne _ (mt hroute.mpr hr)]
    have hsame : encodePayload f = f.received := by
      simp only [encodePayload, Frame.received, hroute]
    rw [hflag, ← length_encodePayload, hsame]

/-- A frame with the route bit, a route of length zero, and no body. -/
theorem relay_of_decodeFrame_blank : ∃ raw, encodeFrame ⟨1, 7, 0x81, 9, [], []⟩ = .ok raw ∧
    decodeFrame raw 0 = .ok (⟨1, 7, 0x01, 9, [], []⟩, []) := by
  have hread : decodeFrame [0, 0, 0, 12, 1, 0, 0, 0, 7, 0x81, 0, 0, 0, 9, 0, 0] 0 =
      .ok (⟨1, 7, 0x81, 9, [], []⟩, []) := by decide +kernel
  obtain ⟨_, raw, _, -, henc, hdec, rfl, -⟩ := relay_of_decodeFrame hread
  exact ⟨raw, henc, hdec⟩

end RanGame.Transport
