import RanGame.Lib.Ring
import RanGame.Transport.Frame

/-!
# The replay buffer of a session

The two downlink channels of `internal/session`: reliable frames get a sequence number and go into a
ring of the newest `cap` of them (`replay.go`), snapshot frames only replace the previous snapshot
of the same message. The sum in `oldest > lastSeq + 1` wraps for `lastSeq = 2 ^ 32 - 1`.
-/

namespace RanGame.Session

open Transport List

/-! ### The ring and the snapshot cache -/

/-- The ring of frames that were sent and may have to be sent again. -/
abbrev RingBuffer := Ring Frame

/-- `newRingBuffer`. The configuration defaults guarantee a positive capacity. -/
def newRingBuffer (capacity : ℕ) (hcap : 0 < capacity) : RingBuffer := Ring.empty capacity hcap

def oldestSeq (r : RingBuffer) : UInt32 :=
  match r.toList with
  | [] => 0
  | f :: _ => f.seq

/-- The buffered frames after `lastSeq`, or `true` when the next one has been overwritten. -/
def since (r : RingBuffer) (lastSeq : UInt32) : List Frame × Bool :=
  if r.size = 0 then ([], false)
  else if oldestSeq r > lastSeq + 1 then ([], true)
  else (r.toList.filter fun f => f.seq > lastSeq, false)

/-- The newest snapshot of every message, one frame per message number. -/
abbrev SnapshotCache := List Frame

/-- `put`: the newest frame of a message replaces the older one. -/
def SnapshotCache.put (c : SnapshotCache) (f : Frame) : SnapshotCache :=
  f :: c.filter fun g => g.msgID ≠ f.msgID

/-- `all`: every snapshot, or those of the given messages. -/
def SnapshotCache.all (c : SnapshotCache) (msgIDs : List UInt32) : List Frame :=
  if msgIDs = [] then c
  else msgIDs.filterMap fun id => c.find? fun f => f.msgID = id

/-! ### The buffering half of a session -/

/-- What a session buffers for its client. -/
structure Downlink where
  /-- The negotiated codec, written into the flag of every frame. -/
  codec : UInt8
  /-- The last sequence number given out. -/
  nextSeq : UInt32
  ring : RingBuffer
  snaps : SnapshotCache

def newDownlink (codec : UInt8) (replayCap : ℕ) (hcap : 0 < replayCap) : Downlink where
  codec := codec
  nextSeq := 0
  ring := newRingBuffer replayCap hcap
  snaps := []

/-- A downlink frame, before its flag bits and number are known to be right for its channel. -/
def downFrame (flag : UInt8) (seq msgID : UInt32) (body : Bytes) : Frame :=
  { ver := protocolVer, msgID := msgID, flag := flag, seq := seq, route := [], body := body }

/-- The `seqMu` section of `pushEncoded`: give the frame the next number and buffer it. -/
def Downlink.number (d : Downlink) (flag : UInt8) (msgID : UInt32) (body : Bytes) : Downlink :=
  { d with
    nextSeq := d.nextSeq + 1
    ring := d.ring.push (downFrame flag (d.nextSeq + 1) msgID body) }

/-- The buffering half of `pushEncoded`. -/
def Downlink.pushEncoded (d : Downlink) (msgID : UInt32) (body : Bytes) (snapshot : Bool) :
    Downlink :=
  if snapshot then
    { d with snaps := d.snaps.put (downFrame (d.codec ||| flagSnapshot) 0 msgID body) }
  else d.number d.codec msgID body

/-- `Replay`: the reliable frames after `lastSeq`, the snapshots, and whether a needed frame was
dropped. -/
def Downlink.replay (d : Downlink) (lastSeq : UInt32) (snapshotMsgIDs : List UInt32) :
    List Frame × List Frame × Bool :=
  ((since d.ring lastSeq).1, d.snaps.all snapshotMsgIDs, (since d.ring lastSeq).2)

/-- What happens to the channels of one session over time. -/
inductive DownOp
  /-- `PushEncoded`, on either channel. -/
  | push (msgID : UInt32) (body : Bytes) (snapshot : Bool)
  | bind (codec : UInt8)
  deriving DecidableEq, Repr

def Downlink.apply (d : Downlink) : DownOp → Downlink
  | .push msgID body snapshot => d.pushEncoded msgID body snapshot
  | .bind codec => { d with codec := codec }

def Downlink.run (d : Downlink) (ops : List DownOp) : Downlink := ops.foldl Downlink.apply d

/-! ### The history of the reliable channel -/

/-- Message number and body of the reliable pushes, in order. -/
def reliablePushes (ops : List DownOp) : List (UInt32 × Bytes) :=
  ops.filterMap fun
    | .push msgID body false => some (msgID, body)
    | _ => none

/-- The frames the reliable pushes produce when `k` numbers have been given out before. -/
def reliableLog : UInt8 → UInt32 → List DownOp → List Frame
  | _, _, [] => []
  | codec, k, .push msgID body false :: ops =>
    downFrame codec (k + 1) msgID body :: reliableLog codec (k + 1) ops
  | codec, k, .push _ _ true :: ops | _, k, .bind codec :: ops => reliableLog codec k ops

theorem run_cons (d : Downlink) (op : DownOp) (ops : List DownOp) :
    d.run (op :: ops) = (d.apply op).run ops := rfl

/-- **The ring is the tail of the history.** -/
theorem ring_run (d : Downlink) (ops : List DownOp) :
    (d.run ops).ring = (reliableLog d.codec d.nextSeq ops).foldl Ring.push d.ring := by
  induction ops generalizing d with
  | nil => rfl
  | cons op ops ih =>
    rw [run_cons, ih]
    cases op with
    | bind codec => rfl
    | push msgID body snapshot => cases snapshot <;> rfl

theorem map_reliableLog (codec : UInt8) (k : UInt32) (ops : List DownOp) :
    (reliableLog codec k ops).map (fun f => (f.msgID, f.body)) = reliablePushes ops := by
  induction ops generalizing codec k with
  | nil => rfl
  | cons op ops ih =>
    cases op with
    | bind c => exact ih c k
    | push msgID body snapshot =>
      cases snapshot with
      | false => exact congrArg ((msgID, body) :: ·) (ih codec (k + 1))
      | true => exact ih codec k

theorem length_reliableLog (codec : UInt8) (k : UInt32) (ops : List DownOp) :
    (reliableLog codec k ops).length = (reliablePushes ops).length := by
  rw [← map_reliableLog codec k ops, length_map]

theorem toNat_succ {k : UInt32} (h : k.toNat + 1 < 2 ^ 32) : (k + 1).toNat = k.toNat + 1 := by
  rw [UInt32.toNat_add, UInt32.toNat_one]
  exact Nat.mod_eq_of_lt h

theorem seq_reliableLog (codec : UInt8) (k : UInt32) (ops : List DownOp)
    (h : k.toNat + (reliablePushes ops).length < 2 ^ 32) :
    (reliableLog codec k ops).map (fun f => f.seq.toNat)
      = List.range' (k.toNat + 1) (reliablePushes ops).length := by
  induction ops generalizing codec k with
  | nil => rfl
  | cons op ops ih =>
    cases op with
    | bind c => exact ih c k h
    | push msgID body snapshot =>
      cases snapshot with
      | true => exact ih codec k h
      | false =>
        have hlen : (reliablePushes (.push msgID body false :: ops)).length
            = (reliablePushes ops).length + 1 := rfl
        rw [hlen] at h ⊢
        have hk : (k + 1).toNat = k.toNat + 1 := toNat_succ (by omega)
        rw [range'_succ, reliableLog, map_cons, ih codec (k + 1) (by omega), hk]
        rw [downFrame, hk]

/-! ### Reading the ring -/

/-- A list of frames numbered `1`, `2`, …, as a history of fewer than `2 ^ 32` pushes is. -/
def Numbered (log : List Frame) : Prop := log.map (fun f => f.seq.toNat) = List.range' 1 log.length

theorem numbered_reliableLog (codec : UInt8) {ops : List DownOp}
    (h : (reliablePushes ops).length < 2 ^ 32) : Numbered (reliableLog codec 0 ops) := by
  rw [Numbered, length_reliableLog]
  exact seq_reliableLog codec 0 ops (by simpa using h)

variable {log : List Frame} {r : RingBuffer}

section

variable (h : Numbered log)

include h

theorem Numbered.seq {i : ℕ} (hi : i < log.length) : (log.get ⟨i, hi⟩).seq.toNat = i + 1 := by
  have := congrArg (fun l => l[i]?) h
  simp only [getElem?_map, getElem?_eq_getElem hi, Option.map_some] at this
  rw [getElem?_eq_getElem (by simpa using hi)] at this
  simp only [getElem_range', Option.some.injEq] at this
  simpa [Nat.add_comm] using this

theorem oldestSeq_eq {m : ℕ} (hm : m < log.length) (hr : r.toList = log.drop m) :
    (oldestSeq r).toNat = m + 1 := by
  rw [oldestSeq, hr, drop_eq_getElem_cons hm]
  exact h.seq hm

theorem Numbered.le_of_mem_take {n : ℕ} {f : Frame} (hf : f ∈ log.take n) : f.seq.toNat ≤ n := by
  obtain ⟨i, hi, rfl⟩ := mem_take_iff_getElem.mp hf
  have := h.seq (show i < log.length by omega)
  simp only [get_eq_getElem] at this
  omega

theorem Numbered.lt_of_mem_drop {n : ℕ} {f : Frame} (hf : f ∈ log.drop n) : n < f.seq.toNat := by
  obtain ⟨i, hi, rfl⟩ := mem_drop_iff_getElem.mp hf
  have := h.seq (show n + i < log.length by omega)
  simp only [get_eq_getElem] at this
  omega

/-- Dropping the frames up to `lastSeq` from a tail that reaches back at least that far. -/
theorem filter_seq {m : ℕ} {lastSeq : UInt32} (hm : m ≤ lastSeq.toNat) :
    (log.drop m).filter (fun f => f.seq > lastSeq) = log.drop lastSeq.toNat := by
  have hold : ((log.take lastSeq.toNat).drop m).filter (fun f => f.seq > lastSeq) = [] := by
    refine filter_eq_nil_iff.mpr fun f hf => ?_
    have := h.le_of_mem_take (mem_of_mem_drop hf)
    simpa [UInt32.lt_iff_toNat_lt] using this
  have hnew : (log.drop lastSeq.toNat).filter (fun f => f.seq > lastSeq)
      = log.drop lastSeq.toNat := by
    refine filter_eq_self.mpr fun f hf => ?_
    simpa [UInt32.lt_iff_toNat_lt] using h.lt_of_mem_drop hf
  have hsplit : log.drop m = (log.take lastSeq.toNat).drop m ++ log.drop lastSeq.toNat := by
    have := take_append_drop (lastSeq.toNat - m) (log.drop m)
    rw [drop_drop, Nat.add_sub_cancel' hm] at this
    rw [drop_take, this]
  rw [hsplit, filter_append, hold, hnew, nil_append]

/-- A ring that holds the last `cap` frames of a numbered history, read after `lastSeq`. -/
theorem since_eq (hr : r.toList = log.rtake r.cap) {lastSeq : UInt32}
    (hle : lastSeq.toNat ≤ log.length) (hmax : lastSeq.toNat + 1 < 2 ^ 32) :
    since r lastSeq = if lastSeq.toNat + r.cap < log.length then ([], true)
        else (log.drop lastSeq.toNat, false) := by
  have hsize : r.size = log.length - (log.length - r.cap) := by
    rw [← r.length_toList, hr, rtake, length_drop]
  have hcap := r.cap_pos
  rw [since]
  by_cases h0 : r.size = 0
  · have hnil : log = [] := eq_nil_of_length_eq_zero (by omega)
    subst hnil
    simp [h0]
  · have hold : (oldestSeq r).toNat = log.length - r.cap + 1 := oldestSeq_eq h (by omega) hr
    rw [if_neg h0, hr, rtake]
    by_cases hover : lastSeq.toNat + r.cap < log.length
    · have hgt : oldestSeq r > lastSeq + 1 := by
        rw [gt_iff_lt, UInt32.lt_iff_toNat_lt, toNat_succ hmax]
        omega
      rw [if_pos hgt, if_pos hover]
    · have hngt : ¬ oldestSeq r > lastSeq + 1 := by
        rw [gt_iff_lt, UInt32.lt_iff_toNat_lt, toNat_succ hmax]
        omega
      rw [if_neg hngt, if_neg hover, filter_seq h (by omega)]

/-- At the last number `lastSeq + 1` wraps to zero, and `since` reports an overflow. -/
theorem since_max (hr : r.toList = log.rtake r.cap) (hne : log ≠ []) :
    (since r 0xFFFFFFFF).2 = true := by
  have hpos : 0 < log.length := length_pos_iff.mpr hne
  have hcap := r.cap_pos
  have hsize : r.size = log.length - (log.length - r.cap) := by
    rw [← r.length_toList, hr, rtake, length_drop]
  have hold : (oldestSeq r).toNat = log.length - r.cap + 1 := oldestSeq_eq h (by omega) hr
  have hgt : oldestSeq r > 0xFFFFFFFF + 1 := by
    rw [gt_iff_lt, UInt32.lt_iff_toNat_lt, hold]
    exact Nat.succ_pos _
  rw [since, if_neg (by omega), if_pos hgt]

end

/-! ### What a reconnecting client is promised -/

/-- After `ops` on a new session with `c` slots, `Replay lastSeq` reports overflow exactly when the
ring has dropped a needed frame, and otherwise returns the frames after it, as pushed. -/
def ReplayCorrect (codec : UInt8) (c : ℕ) (hc : 0 < c) (ops : List DownOp) (lastSeq : UInt32)
    (snapshotMsgIDs : List UInt32) : Prop :=
  let n := (reliablePushes ops).length
  let answer := ((newDownlink codec c hc).run ops).replay lastSeq snapshotMsgIDs
  (answer.2.2 = true ↔ lastSeq.toNat + c < n) ∧ (¬ lastSeq.toNat + c < n →
      answer.1.map (fun f => f.seq.toNat) = List.range' (lastSeq.toNat + 1) (n - lastSeq.toNat) ∧
      answer.1.map (fun f => (f.msgID, f.body)) = (reliablePushes ops).drop lastSeq.toNat)

theorem toList_run (codec : UInt8) (c : ℕ) (hc : 0 < c) (ops : List DownOp) :
    ((newDownlink codec c hc).run ops).ring.cap = c ∧
      ((newDownlink codec c hc).run ops).ring.toList = (reliableLog codec 0 ops).rtake c := by
  rw [ring_run]
  refine ⟨Ring.foldl_push_cap _ _, ?_⟩
  rw [Ring.toList_foldl_push]
  rfl

variable {codec : UInt8} {c : ℕ} {hc : 0 < c} {ops : List DownOp} {lastSeq : UInt32}

theorem replayCorrect_of_ne (hn : (reliablePushes ops).length < 2 ^ 32)
    (hle : lastSeq.toNat ≤ (reliablePushes ops).length) (hmax : lastSeq ≠ 0xFFFFFFFF)
    (ids : List UInt32) : ReplayCorrect codec c hc ops lastSeq ids := by
  obtain ⟨hcap, hlist⟩ := toList_run codec c hc ops
  have hnum : Numbered (reliableLog codec 0 ops) := numbered_reliableLog codec hn
  have hlen := length_reliableLog codec 0 ops
  have hlt : lastSeq.toNat + 1 < 2 ^ 32 := by
    have h32 := lastSeq.toNat_lt
    have hne : lastSeq.toNat ≠ 2 ^ 32 - 1 := fun he => hmax (UInt32.toNat_inj.mp he)
    omega
  have hsince := since_eq hnum (by rw [hcap]; exact hlist) (by omega) hlt
  rw [hcap, hlen] at hsince
  by_cases hover : lastSeq.toNat + c < (reliablePushes ops).length
  · rw [if_pos hover] at hsince
    simp [ReplayCorrect, Downlink.replay, hsince, hover]
  · have hseq := seq_reliableLog codec 0 ops (by simpa using hn)
    rw [if_neg hover] at hsince
    refine ⟨by simp [Downlink.replay, hsince, hover], fun _ => ?_⟩
    simp only [Downlink.replay, hsince, map_drop, map_reliableLog, hseq, and_true]
    rw [drop_range', UInt32.toNat_zero, Nat.zero_add, Nat.mul_one, Nat.add_comm]

theorem not_replayCorrect_of_max (hn : (reliablePushes ops).length = 2 ^ 32 - 1)
    (ids : List UInt32) : ¬ ReplayCorrect codec c hc ops 0xFFFFFFFF ids := by
  obtain ⟨hcap, hlist⟩ := toList_run codec c hc ops
  have hlen := length_reliableLog codec 0 ops
  have hne : reliableLog codec 0 ops ≠ [] := by
    intro hnil
    rw [hnil, hn] at hlen
    simp at hlen
  have hnum : Numbered (reliableLog codec 0 ops) := numbered_reliableLog codec (by omega)
  have hover : (since ((newDownlink codec c hc).run ops).ring 0xFFFFFFFF).2 = true :=
    since_max hnum (by rw [hcap]; exact hlist) hne
  intro h
  have hlt : (0xFFFFFFFF : UInt32).toNat + c < (reliablePushes ops).length := h.1.mp hover
  have hmax : (0xFFFFFFFF : UInt32).toNat = 2 ^ 32 - 1 := rfl
  omega

/-- **Replay is correct for every resume point but one**, the largest 32-bit number. -/
theorem replayCorrect_iff (codec : UInt8) (c : ℕ) (hc : 0 < c) (ops : List DownOp)
    (lastSeq : UInt32) (ids : List UInt32) (hn : (reliablePushes ops).length < 2 ^ 32)
    (hle : lastSeq.toNat ≤ (reliablePushes ops).length) :
    ReplayCorrect codec c hc ops lastSeq ids ↔ lastSeq ≠ 0xFFFFFFFF := by
  constructor
  · rintro h rfl
    have hmax : (0xFFFFFFFF : UInt32).toNat = 2 ^ 32 - 1 := rfl
    exact not_replayCorrect_of_max (by omega) ids h
  · intro hmax
    exact replayCorrect_of_ne hn hle hmax ids

/-- Two slots, three reliable pushes around a snapshot, and a client that saw the first. -/
theorem replayCorrect_three : ReplayCorrect 1 2 (by decide)
      [.push 7 [1] false, .push 9 [0] true, .push 7 [2] false, .push 8 [3] false] 1 [] :=
  (replayCorrect_iff 1 2 (by decide) _ 1 [] (by decide) (by decide)).mpr (by decide)

/-- One slot and `2 ^ 32 - 1` pushes: who has seen the last one is told to have missed some. -/
theorem not_replayCorrect_all_pushed :
    (reliablePushes (List.replicate (2 ^ 32 - 1) (.push 7 [] false))).length < 2 ^ 32 ∧
      (0xFFFFFFFF : UInt32).toNat
        ≤ (reliablePushes (List.replicate (2 ^ 32 - 1) (.push 7 [] false))).length ∧
      ¬ ReplayCorrect 0 1 (by decide) (List.replicate (2 ^ 32 - 1) (.push 7 [] false))
        0xFFFFFFFF [] := by
  have hlen : ∀ k, (reliablePushes (replicate k (.push 7 [] false))).length = k := by
    intro k
    simp [reliablePushes]
  have hmax : (0xFFFFFFFF : UInt32).toNat = 2 ^ 32 - 1 := rfl
  refine ⟨by rw [hlen]; omega, by rw [hlen, hmax], not_replayCorrect_of_max (hlen _) []⟩

end RanGame.Session
