import RanGame.Transport.Frame

/-!
# Frames off a byte stream

A connection is the list of the pieces that it delivers, which have nothing to do with where a frame
ends; `io.ReadFull` calls `Read` until it has enough. A stream that ends too early is a matter of
the last frame only: one that ends after the length of a frame ends with `io.EOF`, as one that ends
where a frame ends.
-/

namespace RanGame.Transport

open List

/-! ### Reading from a connection -/

/-- `io.ReadFull` of `n` bytes: each `Read` returns the next piece, or what fits of it. -/
def readAtLeast (n : ℕ) (got : Bytes) : List Bytes → Except FrameError (Bytes × List Bytes)
  | [] =>
    if n ≤ got.length then .ok (got, [])
    else if got = [] then .error .eof
    else .error .unexpectedEOF
  | piece :: pieces =>
    if n ≤ got.length then .ok (got, piece :: pieces)
    else if piece.length ≤ n - got.length then readAtLeast n (got ++ piece) pieces
    else .ok (got ++ piece.take (n - got.length), piece.drop (n - got.length) :: pieces)

/-- `DecodeFrame`, where `io.ReadFull` is `read`. -/
def decodeFrameVia {R : Type*} (read : ℕ → R → Except FrameError (Bytes × R)) (r : R)
    (maxFrameSize : ℤ) : Except FrameError (Frame × R) :=
  match read 4 r with
  | .error e => .error e
  | .ok (lenBuf, r) =>
    if ofBE lenBuf < headerFixedLen then
      .error (.badFrame ("payload length " ++ toString (ofBE lenBuf) ++ " < header"))
    else if ofBE lenBuf > frameLimit maxFrameSize then
      .error (.frameTooLarge
        (toString (ofBE lenBuf) ++ " > " ++ toString (frameLimit maxFrameSize)))
    else
      match read (ofBE lenBuf) r with
      | .error e => .error e
      | .ok (payload, r) =>
        match decodePayload payload with
        | .error e => .error e
        | .ok f => .ok (f, r)

/-- `DecodeFrame` on a connection. -/
def decodeFrameFrom (pieces : List Bytes) (maxFrameSize : ℤ) :
    Except FrameError (Frame × List Bytes) :=
  decodeFrameVia (fun n => readAtLeast n []) pieces maxFrameSize

theorem decodeFrame_eq_via (r : Bytes) (maxFrameSize : ℤ) :
    decodeFrame r maxFrameSize = decodeFrameVia readFull r maxFrameSize := by
  rw [decodeFrame, decodeFrameVia]
  cases readFull 4 r with
  | error e => rfl
  | ok p =>
    obtain ⟨lenBuf, r⟩ := p
    dsimp only
    cases readFull (ofBE lenBuf) r with
    | error e => rfl
    | ok p =>
      obtain ⟨payload, r⟩ := p
      cases decodePayload payload with
      | error e | ok f => rfl

theorem decodeFrameVia_map {R S : Type*} {read : ℕ → R → Except FrameError (Bytes × R)}
    {read' : ℕ → S → Except FrameError (Bytes × S)} (rest : R → S)
    (hread : ∀ n r, (read n r).map (Prod.map id rest) = read' n (rest r)) (r : R)
    (maxFrameSize : ℤ) :
    (decodeFrameVia read r maxFrameSize).map (Prod.map id rest) =
      decodeFrameVia read' (rest r) maxFrameSize := by
  have hlen := hread 4 r
  rw [decodeFrameVia, decodeFrameVia, ← hlen]
  cases read 4 r with
  | error e => rfl
  | ok p =>
    obtain ⟨lenBuf, r⟩ := p
    have hpayload := hread (ofBE lenBuf) r
    dsimp only [Except.map, Prod.map_apply, id_eq]
    by_cases hsmall : ofBE lenBuf < headerFixedLen
    · rw [if_pos hsmall, if_pos hsmall]
    rw [if_neg hsmall, if_neg hsmall]
    by_cases hlarge : ofBE lenBuf > frameLimit maxFrameSize
    · rw [if_pos hlarge, if_pos hlarge]
    rw [if_neg hlarge, if_neg hlarge, ← hpayload]
    cases read (ofBE lenBuf) r with
    | error e => rfl
    | ok p =>
      obtain ⟨payload, r⟩ := p
      dsimp only [Except.map, Prod.map_apply, id_eq]
      cases decodePayload payload with
      | error e | ok f => rfl

theorem readAtLeast_map {n : ℕ} {got : Bytes} (h : got.length ≤ n) (pieces : List Bytes) :
    (readAtLeast n got pieces).map (Prod.map id List.flatten) =
      readFull n (got ++ pieces.flatten) := by
  induction pieces generalizing got with
  | nil =>
    rw [readAtLeast, readFull, flatten_nil, append_nil]
    split
    · rw [take_of_length_le h, drop_of_length_le h]
      rfl
    split <;> rfl
  | cons piece pieces ih =>
    rw [readAtLeast, flatten_cons]
    by_cases hn : n ≤ got.length
    · -- nothing is left to read
      obtain rfl : got.length = n := Nat.le_antisymm h hn
      rw [if_pos hn, readFull_append rfl]
      rfl
    rw [if_neg hn]
    by_cases hpiece : piece.length ≤ n - got.length
    · rw [if_pos hpiece, ← append_assoc]
      refine ih ?_
      rw [length_append]
      omega
    · -- the piece is cut in two
      have hcut : piece = piece.take (n - got.length) ++ piece.drop (n - got.length) :=
        (take_append_drop ..).symm
      have hfront : (got ++ piece.take (n - got.length)).length = n := by
        rw [length_append, length_take]
        omega
      rw [if_neg hpiece]
      conv_rhs => rw [hcut, append_assoc, ← append_assoc, readFull_append hfront]
      rfl

/-- **How a stream is cut into pieces makes no difference to `DecodeFrame`.** -/
theorem decodeFrameFrom_map (pieces : List Bytes) (maxFrameSize : ℤ) :
    (decodeFrameFrom pieces maxFrameSize).map (Prod.map id List.flatten) =
      decodeFrame pieces.flatten maxFrameSize := by
  rw [decodeFrame_eq_via]
  refine decodeFrameVia_map flatten (fun n r => ?_) pieces maxFrameSize
  exact readAtLeast_map (Nat.zero_le n) r

variable {pieces : List Bytes} {maxFrameSize : ℤ} {f : Frame} {rest : Bytes}

theorem decodeFrameFrom_eq_error {e : FrameError}
    (h : decodeFrame pieces.flatten maxFrameSize = .error e) :
    decodeFrameFrom pieces maxFrameSize = .error e := by
  have hmap := decodeFrameFrom_map pieces maxFrameSize
  rw [h] at hmap
  cases hread : decodeFrameFrom pieces maxFrameSize with
  | error e' =>
    rw [hread] at hmap
    exact congrArg _ (Except.error.inj hmap)
  | ok p =>
    rw [hread] at hmap
    cases hmap

theorem exists_decodeFrameFrom (h : decodeFrame pieces.flatten maxFrameSize = .ok (f, rest)) :
    ∃ pieces', decodeFrameFrom pieces maxFrameSize = .ok (f, pieces') ∧ pieces'.flatten = rest := by
  have hmap := decodeFrameFrom_map pieces maxFrameSize
  rw [h] at hmap
  cases hread : decodeFrameFrom pieces maxFrameSize with
  | error e =>
    rw [hread] at hmap
    cases hmap
  | ok p =>
    rw [hread] at hmap
    obtain ⟨f', pieces'⟩ := p
    obtain ⟨rfl, rfl⟩ := Prod.mk.inj (Except.ok.inj hmap)
    exact ⟨pieces', rfl, rfl⟩

theorem length_lt_of_decodeFrame {r : Bytes} (h : decodeFrame r maxFrameSize = .ok (f, rest)) :
    rest.length < r.length := by
  rw [decodeFrame] at h
  split at h
  · cases h
  rename_i lenBuf r₁ hlen
  split at h
  · cases h
  split at h
  · cases h
  split at h
  · cases h
  rename_i payload r₂ hpayload
  split at h
  · cases h
  obtain ⟨-, rfl⟩ := Prod.mk.inj (Except.ok.inj h)
  have hfront := (eq_of_readFull hlen).2.1
  have hback := (eq_of_readFull hpayload).2.1
  omega

theorem length_lt_of_decodeFrameFrom {pieces' : List Bytes}
    (h : decodeFrameFrom pieces maxFrameSize = .ok (f, pieces')) :
    pieces'.flatten.length < pieces.flatten.length := by
  have hmap := decodeFrameFrom_map pieces maxFrameSize
  rw [h] at hmap
  exact length_lt_of_decodeFrame hmap.symm

/-- `DecodeFrame` until it fails: the frames, and the error. -/
def readFrames (maxFrameSize : ℤ) (pieces : List Bytes) : List Frame × FrameError :=
  match _hread : decodeFrameFrom pieces maxFrameSize with
  | .error e => ([], e)
  | .ok (f, rest) =>
    let (fs, e) := readFrames maxFrameSize rest
    (f :: fs, e)
termination_by pieces.flatten.length
decreasing_by exact length_lt_of_decodeFrameFrom _hread

theorem readFrames_of_error {e : FrameError}
    (h : decodeFrame pieces.flatten maxFrameSize = .error e) :
    readFrames maxFrameSize pieces = ([], e) := by
  have hread := decodeFrameFrom_eq_error h
  rw [readFrames]
  split
  next e' hread' =>
    rw [hread] at hread'
    cases hread'
    rfl
  next f rest hread' =>
    rw [hread] at hread'
    cases hread'

theorem exists_readFrames (h : decodeFrame pieces.flatten maxFrameSize = .ok (f, rest)) :
    ∃ pieces', pieces'.flatten = rest ∧ readFrames maxFrameSize pieces =
      (f :: (readFrames maxFrameSize pieces').1, (readFrames maxFrameSize pieces').2) := by
  obtain ⟨pieces', hread, hrest⟩ := exists_decodeFrameFrom h
  refine ⟨pieces', hrest, ?_⟩
  rw [readFrames]
  split
  next e hread' =>
    rw [hread] at hread'
    cases hread'
  next f' rest' hread' =>
    rw [hread] at hread'
    cases hread'
    rfl

/-! ### Frames one after the other -/

def encodeAll : List Frame → Except FrameError Bytes
  | [] => .ok []
  | f :: fs =>
    match encodeFrame f, encodeAll fs with
    | .ok raw, .ok rest => .ok (raw ++ rest)
    | .error e, _ | _, .error e => .error e

theorem encodeAll_cons_eq_ok {fs : List Frame} {stream : Bytes}
    (h : encodeAll (f :: fs) = .ok stream) :
    ∃ raw rest, encodeFrame f = .ok raw ∧ encodeAll fs = .ok rest ∧ stream = raw ++ rest := by
  rw [encodeAll] at h
  split at h
  next raw rest hraw hrest => exact ⟨raw, rest, hraw, hrest, (Except.ok.inj h).symm⟩
  · cases h
  · cases h

theorem exists_encodeFrame (hroute : f.route.length ≤ 65535) (hpay : f.payloadLen ≤ 0xFFFFFFFF) :
    ∃ raw, encodeFrame f = .ok raw := by
  rw [encodeFrame, if_neg (Nat.not_lt.mpr hroute), if_neg (Nat.not_lt.mpr hpay)]
  exact ⟨_, rfl⟩

theorem exists_encodeAll {fs : List Frame} (hroute : ∀ f ∈ fs, f.route.length ≤ 65535)
    (hpay : ∀ f ∈ fs, f.payloadLen ≤ 0xFFFFFFFF) : ∃ stream, encodeAll fs = .ok stream := by
  induction fs with
  | nil => exact ⟨[], rfl⟩
  | cons f fs ih =>
    rw [forall_mem_cons] at hroute hpay
    obtain ⟨raw, hraw⟩ := exists_encodeFrame hroute.1 hpay.1
    obtain ⟨rest, hrest⟩ := ih hroute.2 hpay.2
    exact ⟨raw ++ rest, by rw [encodeAll, hraw, hrest]⟩

/-- The stream has ended. -/
def FrameError.isEnd : FrameError → Bool
  | .eof | .unexpectedEOF => true
  | _ => false

theorem exists_readFull_error {n : ℕ} {r : Bytes} (h : r.length < n) :
    ∃ e, e.isEnd = true ∧ readFull n r = .error e := by
  rw [readFull, if_neg (Nat.not_le.mpr h)]
  split
  · exact ⟨.eof, rfl, rfl⟩
  · exact ⟨.unexpectedEOF, rfl, rfl⟩

/-- **A frame that is cut off is not read**: the stream has ended. -/
theorem decodeFrame_truncated {front back : Bytes} (h : encodeFrame f = .ok (front ++ back))
    (hback : back ≠ []) (hmax : f.payloadLen ≤ frameLimit maxFrameSize) :
    ∃ e, e.isEnd = true ∧ decodeFrame front maxFrameSize = .error e := by
  obtain ⟨-, hpay, heq⟩ := encodeFrame_eq_ok h
  have hbe : ofBE (toBE 4 f.payloadLen) = f.payloadLen := ofBE_toBE_of_lt (by norm_num; omega)
  have hge : ¬ f.payloadLen < headerFixedLen := by rw [Frame.payloadLen]; omega
  have hlost : 0 < back.length := length_pos_of_ne_nil hback
  have htotal := congrArg length heq
  rw [length_append, length_append, length_toBE, length_encodePayload] at htotal
  rw [show f.setRouteFlag.payloadLen = f.payloadLen from rfl] at htotal
  by_cases hshort : front.length < 4
  · -- not even the length is there
    obtain ⟨e, he, hread⟩ := exists_readFull_error hshort
    refine ⟨e, he, ?_⟩
    rw [decodeFrame, hread]
  · have hfour : front.take 4 = toBE 4 f.payloadLen := by
      have htake := congrArg (take 4) heq
      rwa [take_append_of_le_length (by omega), take_left' (length_toBE _ _)] at htake
    have hcut : front = toBE 4 f.payloadLen ++ front.drop 4 := by
      rw [← hfour, take_append_drop]
    obtain ⟨e, he, hread⟩ := exists_readFull_error (n := f.payloadLen) (r := front.drop 4)
      (by rw [length_drop]; omega)
    refine ⟨e, he, ?_⟩
    rw [decodeFrame, hcut, readFull_append (length_toBE _ _)]
    simp only [hbe, if_neg hge, if_neg (Nat.not_lt.mpr hmax), hread]

section Stream

variable {fs : List Frame} {stream : Bytes} {maxFrameSize : ℤ}

variable (hmax : ∀ f ∈ fs, f.payloadLen ≤ frameLimit maxFrameSize)
  (hstream : encodeAll fs = .ok stream)

include hmax hstream

theorem readFrames_of_all {pieces : List Bytes} (hpieces : pieces.flatten = stream) :
    readFrames maxFrameSize pieces = (fs.map Frame.setRouteFlag, .eof) := by
  induction fs generalizing stream pieces with
  | nil =>
    obtain rfl : [] = stream := Except.ok.inj hstream
    refine readFrames_of_error ?_
    rw [hpieces]
    rfl
  | cons f fs ih =>
    obtain ⟨raw, rest, hraw, hrest, rfl⟩ := encodeAll_cons_eq_ok hstream
    rw [forall_mem_cons] at hmax
    have hread := decodeFrame_encodeFrame hraw hmax.1 rest
    rw [← hpieces] at hread
    obtain ⟨pieces', hpieces', hframes⟩ := exists_readFrames hread
    rw [hframes, ih hmax.2 hrest hpieces']
    rfl

theorem exists_readFrames_of_front {front back : Bytes} (hcut : front ++ back = stream)
    (hback : back ≠ []) {pieces : List Bytes} (hpieces : pieces.flatten = front) :
    ∃ k e, k < fs.length ∧ e.isEnd = true ∧
      readFrames maxFrameSize pieces = ((fs.take k).map Frame.setRouteFlag, e) := by
  induction fs generalizing stream front pieces with
  | nil =>
    obtain rfl : [] = stream := Except.ok.inj hstream
    exact absurd (append_eq_nil_iff.mp hcut).2 hback
  | cons f fs ih =>
    obtain ⟨raw, rest, hraw, hrest, rfl⟩ := encodeAll_cons_eq_ok hstream
    rw [forall_mem_cons] at hmax
    by_cases hlen : raw.length ≤ front.length
    · -- the first frame is complete
      obtain ⟨front', rfl⟩ : raw <+: front :=
        prefix_of_prefix_length_le ⟨rest, hcut.symm⟩ ⟨back, rfl⟩ hlen
      have hread := decodeFrame_encodeFrame hraw hmax.1 front'
      rw [← hpieces] at hread
      obtain ⟨pieces', hpieces', hframes⟩ := exists_readFrames hread
      have hcut' : front' ++ back = rest := by
        rw [append_assoc] at hcut
        exact append_cancel_left hcut
      obtain ⟨k, e, hk, he, hfront⟩ := ih hmax.2 hrest hcut' hpieces'
      refine ⟨k + 1, e, Nat.succ_lt_succ hk, he, ?_⟩
      rw [hframes, hfront]
      rfl
    · -- it is cut off
      obtain ⟨lost, rfl⟩ : front <+: raw :=
        prefix_of_prefix_length_le ⟨back, hcut⟩ ⟨rest, rfl⟩ (by omega)
      have hlost : lost ≠ [] := by
        rintro rfl
        simp at hlen
      obtain ⟨e, he, hread⟩ := decodeFrame_truncated hraw hlost hmax.1
      refine ⟨0, e, Nat.succ_pos _, he, ?_⟩
      rw [← hpieces] at hread
      exact readFrames_of_error hread

end Stream

/-- **Frames arrive as sent, however the stream is cut.** Encodings of frames within the limits are
decoded to these frames and the end of the stream; from a part that lacks the end, the first few are
decoded. A frame of any size that `len` can hold has an encoding. -/
theorem readFrames_encodeAll {fs : List Frame} {maxFrameSize : ℤ}
    (hroute : ∀ f ∈ fs, f.route.length ≤ 65535)
    (hmax : ∀ f ∈ fs, f.payloadLen ≤ frameLimit maxFrameSize) :
    ((∀ f ∈ fs, f.payloadLen ≤ 0xFFFFFFFF) → ∃ stream, encodeAll fs = .ok stream) ∧
    ∀ stream, encodeAll fs = .ok stream → (∀ pieces : List Bytes, pieces.flatten = stream →
        readFrames maxFrameSize pieces = (fs.map Frame.setRouteFlag, .eof)) ∧
      ∀ front back, front ++ back = stream → back ≠ [] →
        ∀ pieces : List Bytes, pieces.flatten = front → ∃ k e, k < fs.length ∧ e.isEnd = true ∧
            readFrames maxFrameSize pieces = ((fs.take k).map Frame.setRouteFlag, e) := by
  refine ⟨exists_encodeAll hroute, fun stream hstream => ⟨?_, ?_⟩⟩
  · intro pieces hpieces
    exact readFrames_of_all hmax hstream hpieces
  · intro front back hcut hback pieces hpieces
    exact exists_readFrames_of_front hmax hstream hcut hback hpieces

/-- Two frames: one that says it has a route and has none, and one with a route. -/
def twoFrames : List Frame := [⟨1, 0x10, 0x81, 7, [], [104, 105]⟩, ⟨1, 0x11, 0, 8, [114], []⟩]

def twoFramesStream : Bytes :=
  [0, 0, 0, 12, 1, 0, 0, 0, 16, 1, 0, 0, 0, 7, 104, 105] ++
    [0, 0, 0, 13, 1, 0, 0, 0, 17, 128, 0, 0, 0, 8, 0, 1, 114]

theorem readFrames_encodeAll_two : encodeAll twoFrames = .ok twoFramesStream ∧
    readFrames 0 [twoFramesStream.take 3, [], twoFramesStream.drop 3] =
        (twoFrames.map Frame.setRouteFlag, .eof) ∧
      ∃ k e, k < 2 ∧ e.isEnd = true ∧ readFrames 0 [twoFramesStream.take 30] =
          ((twoFrames.take k).map Frame.setRouteFlag, e) := by
  have hstream : encodeAll twoFrames = .ok twoFramesStream := by decide
  obtain ⟨-, hread⟩ := readFrames_encodeAll (show ∀ f ∈ twoFrames, f.route.length ≤ 65535 by decide)
    (show ∀ f ∈ twoFrames, f.payloadLen ≤ frameLimit 0 by decide)
  obtain ⟨hall, hfront⟩ := hread twoFramesStream hstream
  exact ⟨hstream, hall _ (by decide), hfront (twoFramesStream.take 30) (twoFramesStream.drop 30)
    (by decide) (by decide) _ (by decide)⟩

end RanGame.Transport
