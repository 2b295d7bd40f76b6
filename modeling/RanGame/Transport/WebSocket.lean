import RanGame.Lib.Machine
import RanGame.Transport.Stream

/-!
# Messages of a WebSocket

`writeLoop` of `internal/transport/acceptor_ws.go` collects what has been pushed until there are
`WriteFlushBytes` bytes or a timer fires, so one message may hold several frames. `wsConn.Read`
decodes only the first frame of each message.
-/

namespace RanGame.Transport

open List Machine

/-! ### Reading messages -/

inductive MessageType
  | text
  | binary
  deriving DecidableEq, Repr

structure WSMessage where
  type : MessageType
  data : Bytes
  deriving DecidableEq, Repr

/-- Why `wsConn.Read` fails. -/
inductive ReadError
  | closed
  /-- `ErrTextFrameNotSupported` -/
  | textFrameNotSupported
  | frame (cause : FrameError)
  deriving DecidableEq, Repr

/-- `wsConn.Read`, once there is a message. -/
def readMessage (maxFrameSize : ℤ) (m : WSMessage) : Except ReadError Frame :=
  match m.type with
  | .text => .error .textFrameNotSupported
  | .binary =>
    match decodeFrame m.data maxFrameSize with
    | .error e => .error (.frame e)
    | .ok (f, _) => .ok f

/-- `wsConn.Read` until it fails: the frames, and the error. -/
def wsFrames (maxFrameSize : ℤ) : List WSMessage → List Frame × ReadError
  | [] => ([], .closed)
  | m :: ms =>
    match readMessage maxFrameSize m with
    | .error e => ([], e)
    | .ok f =>
      let (fs, e) := wsFrames maxFrameSize ms
      (f :: fs, e)

/-- The message is the encodings of these frames, one after the other. -/
def Carries (fs : List Frame) (m : WSMessage) : Prop := m.type = .binary ∧ encodeAll fs = .ok m.data

theorem readMessage_of_carries {f : Frame} {fs : List Frame} {m : WSMessage}
    (h : Carries (f :: fs) m) {maxFrameSize : ℤ} (hmax : f.payloadLen ≤ frameLimit maxFrameSize) :
    readMessage maxFrameSize m = .ok f.setRouteFlag := by
  obtain ⟨htype, hdata⟩ := h
  obtain ⟨raw, rest, hraw, -, hcut⟩ := encodeAll_cons_eq_ok hdata
  rw [readMessage, htype]
  dsimp only
  rw [hcut, decodeFrame_encodeFrame hraw hmax rest]

section Batches

variable {batches : List (List Frame)} {ms : List WSMessage} {maxFrameSize : ℤ}

/-- **`Read` returns the first frame of every message.** -/
theorem wsFrames_of_carries (hne : ∀ fs ∈ batches, fs ≠ [])
    (hmax : ∀ fs ∈ batches, ∀ f ∈ fs, f.payloadLen ≤ frameLimit maxFrameSize)
    (hms : List.Forall₂ Carries batches ms) : wsFrames maxFrameSize ms =
      ((batches.filterMap List.head?).map Frame.setRouteFlag, .closed) := by
  induction hms with
  | nil => rfl
  | @cons fs m batches ms hm hms ih =>
    rw [forall_mem_cons] at hne hmax
    obtain ⟨f, fs, rfl⟩ := exists_cons_of_ne_nil hne.1
    have hread := readMessage_of_carries hm (hmax.1 f (mem_cons_self ..))
    rw [wsFrames, hread, ih hne.2 hmax.2]
    rfl

theorem length_heads_eq_iff (hne : ∀ fs ∈ batches, fs ≠ []) :
    (batches.filterMap List.head?).length = batches.flatten.length ↔
      ∀ fs ∈ batches, fs.length = 1 := by
  have hle : ∀ batches : List (List Frame), (∀ fs ∈ batches, fs ≠ []) →
      (batches.filterMap head?).length ≤ batches.flatten.length := by
    intro batches
    induction batches with
    | nil => exact fun _ => le_rfl
    | cons fs batches ih =>
      intro hne
      rw [forall_mem_cons] at hne
      obtain ⟨f, fs, rfl⟩ := exists_cons_of_ne_nil hne.1
      have hrest := ih hne.2
      simp only [filterMap_cons, head?_cons, length_cons, flatten_cons, length_append]
      omega
  induction batches with
  | nil => exact ⟨fun _ _ h => absurd h not_mem_nil, fun _ => rfl⟩
  | cons fs batches ih =>
    rw [forall_mem_cons] at hne
    have hrest := hle batches hne.2
    obtain ⟨f, fs, rfl⟩ := exists_cons_of_ne_nil hne.1
    simp only [forall_mem_cons, ← ih hne.2, filterMap_cons, head?_cons,
      length_cons, flatten_cons, length_append]
    omega

end Batches

/-- **Successive `Read`s return all frames, in order, if and only if every message holds one
frame.** -/
theorem wsFrames_eq_all_iff {batches : List (List Frame)} {ms : List WSMessage} {maxFrameSize : ℤ}
    (hne : ∀ fs ∈ batches, fs ≠ [])
    (hmax : ∀ fs ∈ batches, ∀ f ∈ fs, f.payloadLen ≤ frameLimit maxFrameSize)
    (hms : List.Forall₂ Carries batches ms) :
    wsFrames maxFrameSize ms = (batches.flatten.map Frame.setRouteFlag, .closed) ↔
      ∀ fs ∈ batches, fs.length = 1 := by
  rw [wsFrames_of_carries hne hmax hms, ← length_heads_eq_iff hne]
  constructor
  · intro h
    have hlength := congrArg length (Prod.mk.inj h).1
    rwa [length_map, length_map] at hlength
  · intro h
    have hsame : batches.filterMap head? = batches.flatten := by
      rw [length_heads_eq_iff hne] at h
      clear hne hmax hms
      induction batches with
      | nil => rfl
      | cons fs batches ih =>
        rw [forall_mem_cons] at h
        obtain ⟨f, rfl⟩ := length_eq_one_iff.mp h.1
        rw [filterMap_cons, flatten_cons, ih h.2]
        rfl
    rw [hsame]

theorem wsFrames_eq_all_two : ∃ ms, List.Forall₂ Carries (twoFrames.map ([·])) ms ∧
    wsFrames 0 ms = (twoFrames.map Frame.setRouteFlag, .closed) := by
  refine ⟨[⟨.binary, twoFramesStream.take 16⟩, ⟨.binary, twoFramesStream.drop 16⟩], ?_⟩
  have hms : List.Forall₂ Carries (twoFrames.map ([·]))
      [⟨.binary, twoFramesStream.take 16⟩, ⟨.binary, twoFramesStream.drop 16⟩] :=
    .cons ⟨rfl, by decide⟩ (.cons ⟨rfl, by decide⟩ .nil)
  have hiff := wsFrames_eq_all_iff (by decide)
    (show ∀ fs ∈ twoFrames.map ([·]), ∀ f ∈ fs, f.payloadLen ≤ frameLimit 0 by decide) hms
  exact ⟨hms, hiff.mpr (by decide)⟩

/-! ### Writing messages -/

/-- `writeLoop`, and what has been pushed. -/
structure WriteLoop where
  queue : List Bytes
  buf : Bytes
  /-- The inner loop: more may be added until the timer fires. -/
  batching : Bool
  done : Bool
  ended : Bool
  written : List WSMessage
  /-- History: what `Push` has accepted. -/
  pushed : List Bytes
  deriving DecidableEq, Repr

/-- What can happen. `ok` says whether `WriteMessage` succeeds, if it is called. -/
inductive WriteAct
  | push (data : Bytes)
  | first
  | more (ok : Bool)
  | timer (ok : Bool)
  | close
  | exit

/-- The writer of a new connection. -/
def newWriteLoop : WriteLoop := ⟨[], [], false, false, false, [], []⟩

namespace WriteLoop

variable (s : WriteLoop)

/-- `flush`, and what comes after it. -/
def flush (ok : Bool) : WriteLoop :=
  if s.buf = [] then { s with batching := false }
  else if ok then
    { s with written := s.written ++ [⟨.binary, s.buf⟩], buf := [], batching := false }
  else { s with done := true, ended := true }

/-- What is pushed first is received. -/
@[simps] def receive (data : Bytes) (queue : List Bytes) : WriteLoop :=
  { s with queue := queue, buf := s.buf ++ data, batching := true }

def step (writeChannelSize writeFlushBytes : ℕ) (s : WriteLoop) : WriteAct → Option WriteLoop
  | .push data =>
    if s.queue.length < writeChannelSize then
      some { s with queue := s.queue ++ [data], pushed := s.pushed ++ [data] }
    else some s
  | .first =>
    match s.queue with
    | data :: queue => if s.batching ∨ s.ended then none else some (s.receive data queue)
    | [] => none
  | .more ok =>
    match s.queue with
    | data :: queue =>
      if s.batching ∧ ¬ s.ended then
        if writeFlushBytes ≤ (s.receive data queue).buf.length then
          some ((s.receive data queue).flush ok)
        else some (s.receive data queue)
      else none
    | [] => none
  | .timer ok => if s.batching ∧ ¬ s.ended then some (s.flush ok) else none
  | .close => some { s with done := true }
  | .exit => if s.done ∧ ¬ s.ended then some { s with ended := true } else none

/-- The messages are batches of pushes, and with buffer and channel all pushes. -/
structure Batched (s : WriteLoop) (batches : List (List Bytes)) (rest : List Bytes) : Prop where
  ne_nil : ∀ b ∈ batches, b ≠ []
  written : s.written = batches.map fun b => ⟨.binary, b.flatten⟩
  buf : s.buf = rest.flatten
  pushed : s.pushed = batches.flatten ++ rest ++ s.queue

variable {s} {s' : WriteLoop} {batches : List (List Bytes)} {rest : List Bytes}

theorem Batched.receive (h : Batched s batches rest) {data : Bytes} {queue : List Bytes}
    (hqueue : s.queue = data :: queue) :
    Batched (s.receive data queue) batches (rest ++ [data]) where
  __ := h
  buf := by simp [h.buf]
  pushed := by simp [h.pushed, hqueue]

theorem Batched.flush (h : Batched s batches rest) (ok : Bool) :
    ∃ batches rest, Batched (s.flush ok) batches rest := by
  rw [WriteLoop.flush]
  split
  · exact ⟨batches, rest, h.ne_nil, h.written, h.buf, h.pushed⟩
  rename_i hbuf
  split
  · -- what was in the buffer is one more batch
    have hrest : rest ≠ [] := by
      rintro rfl
      exact hbuf h.buf
    refine ⟨batches ++ [rest], [], ?_, ?_, rfl, ?_⟩
    · rw [forall_mem_append]
      exact ⟨h.ne_nil, forall_mem_singleton.mpr hrest⟩
    · simp [h.written, h.buf]
    · simp [h.pushed]
  · exact ⟨batches, rest, h.ne_nil, h.written, h.buf, h.pushed⟩

theorem Batched.step {writeChannelSize writeFlushBytes : ℕ} (h : Batched s batches rest)
    {a : WriteAct} (hstep : s.step writeChannelSize writeFlushBytes a = some s') :
    ∃ batches rest, Batched s' batches rest := by
  cases a with
  | push data =>
    simp only [WriteLoop.step] at hstep
    split at hstep <;> cases hstep
    · exact ⟨batches, rest, h.ne_nil, h.written, h.buf, by simp [h.pushed]⟩
    · exact ⟨batches, rest, h⟩
  | first =>
    simp only [WriteLoop.step] at hstep
    split at hstep
    next hqueue =>
      split at hstep <;> cases hstep
      · exact ⟨batches, _, h.receive hqueue⟩
    · cases hstep
  | more ok =>
    simp only [WriteLoop.step] at hstep
    split at hstep
    next hqueue =>
      split at hstep
      · split at hstep <;> cases hstep
        · exact (h.receive hqueue).flush ok
        · exact ⟨batches, _, h.receive hqueue⟩
      · cases hstep
    · cases hstep
  | timer ok =>
    simp only [WriteLoop.step] at hstep
    split at hstep <;> cases hstep
    · exact h.flush ok
  | close =>
    cases hstep
    exact ⟨batches, rest, h.ne_nil, h.written, h.buf, h.pushed⟩
  | exit =>
    simp only [WriteLoop.step] at hstep
    split at hstep <;> cases hstep
    · exact ⟨batches, rest, h.ne_nil, h.written, h.buf, h.pushed⟩

section Run

variable {writeChannelSize writeFlushBytes : ℕ} {acts : List WriteAct}

/-- **Every message of the writer is a batch of pushes**, and no push before them is missing. -/
theorem written_of_run
    (hrun : run (step writeChannelSize writeFlushBytes) newWriteLoop acts = some s) :
    ∃ batches rest, Batched s batches rest := by
  refine invariant_of_run (I := fun s => ∃ batches rest, Batched s batches rest)
    (G := fun _ _ => True) ?_ ⟨[], [], forall_mem_nil _, rfl, rfl, rfl⟩ along_true hrun
  rintro s a s' ⟨batches, rest, h⟩ - hstep
  exact h.step hstep

theorem encodeAll_of_forall₂ {fs : List Frame} {raws : List Bytes}
    (h : List.Forall₂ (fun f raw => encodeFrame f = .ok raw) fs raws) :
    encodeAll fs = .ok raws.flatten := by
  induction h with
  | nil => rfl
  | cons hraw _ ih => rw [encodeAll, hraw, ih, flatten_cons]

/-- **Who reads the messages as a stream gets the frames pushed**, in order, up to some point, and
all of them once nothing waits to be written. -/
theorem readFrames_written
    (hrun : run (step writeChannelSize writeFlushBytes) newWriteLoop acts = some s)
    {fs : List Frame} (hfs : List.Forall₂ (fun f raw => encodeFrame f = .ok raw) fs s.pushed)
    {maxFrameSize : ℤ} (hmax : ∀ f ∈ fs, f.payloadLen ≤ frameLimit maxFrameSize) :
    (∃ k, readFrames maxFrameSize (s.written.map WSMessage.data) =
      ((fs.take k).map Frame.setRouteFlag, .eof)) ∧ (s.queue = [] → s.buf = [] →
      readFrames maxFrameSize (s.written.map WSMessage.data) =
        (fs.map Frame.setRouteFlag, .eof)) := by
  obtain ⟨batches, rest, h⟩ := written_of_run hrun
  have hsent : List.Forall₂ (fun f raw => encodeFrame f = .ok raw)
      (fs.take batches.flatten.length) batches.flatten := by
    have htake := forall₂_take batches.flatten.length hfs
    rwa [h.pushed, append_assoc, take_left] at htake
  have hstream : (s.written.map WSMessage.data).flatten = batches.flatten.flatten := by
    rw [h.written, map_map, flatten_flatten]
    rfl
  refine ⟨⟨batches.flatten.length, readFrames_of_all (fun f hf => hmax f (mem_of_mem_take hf))
    (encodeAll_of_forall₂ hsent) hstream⟩, fun hqueue hbuf => ?_⟩
  refine readFrames_of_all hmax (encodeAll_of_forall₂ hfs) ?_
  rw [hstream, h.pushed, hqueue, append_nil, flatten_append, ← h.buf, hbuf, append_nil]

end Run

/-- Two frames are pushed within the time of one batch. -/
def twoPushes : List WriteAct :=
  [.push (twoFramesStream.take 16), .push (twoFramesStream.drop 16), .first, .more true,
    .timer true]

theorem readFrames_written_two : ∃ s, run (step 256 4096) newWriteLoop twoPushes = some s ∧
    (s.pushed = [twoFramesStream.take 16, twoFramesStream.drop 16] ∧ s.queue = [] ∧ s.buf = []) ∧
    readFrames 0 (s.written.map WSMessage.data) = (twoFrames.map Frame.setRouteFlag, .eof) :=
  exists_of_run_and (by decide +kernel) fun s hrun ⟨hpushed, hqueue, hbuf⟩ =>
    (readFrames_written hrun (hpushed ▸ .cons (by decide) (.cons (by decide) .nil))
      (by decide)).2 hqueue hbuf

/-- Two frames are in one message. A peer that reads messages as the writer's side does loses the
second. -/
theorem wsFrames_loses : ∃ s m,
    run (step 256 4096) newWriteLoop twoPushes = some s ∧ s.written = [m] ∧
      Carries twoFrames m ∧ twoFrames.length = 2 ∧
      wsFrames 0 [m] = ((twoFrames.take 1).map Frame.setRouteFlag, .closed) := by
  obtain ⟨s, hrun, hwritten⟩ := exists_of_run (step 256 4096) newWriteLoop twoPushes
    (fun s => s.written = [⟨.binary, twoFramesStream⟩]) (by decide +kernel)
  exact ⟨s, _, hrun, hwritten, ⟨rfl, by decide⟩, rfl, by decide +kernel⟩

end WriteLoop

end RanGame.Transport
