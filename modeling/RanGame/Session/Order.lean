import RanGame.Lib.Sequence
import RanGame.Session.Custody

/-!
# The order of reliable frames on a connection

The frames handed to one connection must come with increasing numbers. Two pushes may reach the
connection in either order; and a reconnect goes online before it has written the frames it replays,
so a push may get ahead of them. `Quiet` asks for what a lock around numbering and sending would
give.
-/

namespace RanGame.Session

open Function List Machine Transport

/-- The numbers in the ring are consecutive and end with the last one given out. -/
structure Downlink.RingOk (d : Downlink) : Prop where
  consecutive : Consecutive (d.ring.toList.map Frame.seq)
  last_eq : ∀ q ∈ (d.ring.toList.map Frame.seq).getLast?, q = d.nextSeq

theorem Downlink.RingOk.number {d : Downlink} (hd : d.RingOk) (hwrap : d.nextSeq.toNat + 1 < 2 ^ 32)
    (flag : UInt8) (msgID : UInt32) (body : Bytes) : (d.number flag msgID body).RingOk := by
  have hall : Consecutive (d.ring.toList.map Frame.seq ++ [d.nextSeq + 1]) := by
    refine hd.consecutive.concat fun q hq => ?_
    rw [hd.last_eq q hq, toNat_succ hwrap]
  have hring : (d.number flag msgID body).ring.toList.map Frame.seq =
      (d.ring.toList.map Frame.seq ++ [d.nextSeq + 1]).rtake d.ring.cap := by
    simp only [Downlink.number, Ring.toList_push, rtake, map_drop, map_append]
    simp [downFrame]
  have hcap := d.ring.cap_pos
  constructor
  · rw [hring]
    exact hall.suffix (drop_suffix _ _)
  · intro q hq
    rw [hring, rtake, getLast?_drop] at hq
    split at hq
    · cases hq
    · simpa [Downlink.number, eq_comm] using hq

theorem Downlink.RingOk.since {d : Downlink} (hd : d.RingOk) (lastSeq : UInt32) :
    Consecutive ((since d.ring lastSeq).1.map Frame.seq) ∧
      ∀ q ∈ ((Session.since d.ring lastSeq).1.map Frame.seq).getLast?, q = d.nextSeq := by
  have hfilter : (d.ring.toList.filter fun f => f.seq > lastSeq).map Frame.seq =
      (d.ring.toList.map Frame.seq).filter fun q => q > lastSeq := by
    rw [filter_map]
    rfl
  obtain ⟨hcons, hlast⟩ := hd.consecutive.filter_gt lastSeq
  unfold Session.since
  split
  · simp
  · split
    · simp
    · rw [hfilter]
      exact ⟨hcons, fun q hq => hd.last_eq q (hlast q hq)⟩

namespace Delivery

variable {n writeCap : ℕ} {s s' : Delivery n}

/-! ### The order -/

def numbers (s : Delivery n) : DeliveryAct n → Bool
  | .buffer i =>
    match s.pushers i with
    | .buffering _ _ _ snapshot => !snapshot
    | _ => false
  | _ => false

/-- A push takes a number without wrapping, while no numbered push is on its way to a bound
connection and it does not wait for replayed frames; a connection is bound while no numbered push is
looking for one. -/
def Quiet (s : Delivery n) (a : DeliveryAct n) : Prop :=
  (s.numbers a = true → s.down.nextSeq.toNat + 1 < 2 ^ 32 ∧
      ∀ c ∈ s.bound, (s.conns c).handler.busy = false ∧
        ∀ i, (s.pushers i).undecided = none ∧ ∀ p ∈ (s.pushers i).decided, p.2 ≠ c) ∧
    (a.binds = true → ∀ i, (s.pushers i).undecided = none)

instance (s : Delivery n) (a : DeliveryAct n) : Decidable (s.Quiet a) :=
  inferInstanceAs (Decidable ((_ → _ ∧ ∀ c ∈ s.bound, _) ∧ (_ → ∀ _ : Fin n, _)))

/-- What a connection was handed and waits for increases, and is no newer than the last number. -/
structure Sorted (last : UInt32) (k : Conn) : Prop where
  pairwise : k.due.Pairwise (· < ·)
  le_last : ∀ q ∈ k.due, q ≤ last
  early : k.handler.early = true → k.handed = []

/-- Numbers increase on every connection, including those still on their way. -/
structure Ordered (s : Delivery n) : Prop where
  custody : s.Custody
  ring : s.down.RingOk
  sorted : ∀ c, Sorted s.down.nextSeq (s.conns c)
  aimed_le : ∀ i q c, s.Aimed i q c → q ≤ s.down.nextSeq
  aimed_gt : ∀ i q c, s.Aimed i q c → ∀ r ∈ (s.conns c).handed, r < q
  alone : ∀ i j q r c, s.Aimed i q c → s.Aimed j r c → i = j
  window : ∀ c, (s.conns c).handler.busy = true → ∀ i q, ¬ s.Aimed i q c

section

variable (hs : s.Ordered)

include hs

theorem Ordered.calm (hc : s.Calm s') : s'.Ordered where
  custody := hs.custody.calm hc
  ring := by
    constructor
    · rw [hc.ring_eq]
      exact hs.ring.consecutive
    · rw [hc.ring_eq, hc.nextSeq_eq]
      exact hs.ring.last_eq
  sorted := by
    intro c
    have hk := hs.sorted c
    have hdue : (s'.conns c).due = (s.conns c).due := by
      rw [Conn.due, Conn.due, (hc.conns c).handed_eq, (hc.conns c).frames_eq]
    rw [hc.nextSeq_eq]
    refine ⟨hdue ▸ hk.pairwise, hdue ▸ hk.le_last, fun he => ?_⟩
    rw [(hc.conns c).handed_eq]
    exact hk.early ((hc.conns c).early_eq ▸ he)
  aimed_le := fun i q c ha => hc.nextSeq_eq ▸ hs.aimed_le i q c (hc.aimed ha)
  aimed_gt := fun i q c ha => (hc.conns c).handed_eq ▸ hs.aimed_gt i q c (hc.aimed ha)
  alone := fun i j q r c hi hj => hs.alone i j q r c (hc.aimed hi) (hc.aimed hj)
  window := by
    intro c hb i q ha
    refine hs.window c ?_ i q (hc.aimed ha)
    rwa [Handler.busy, (hc.conns c).early_eq, (hc.conns c).frames_eq] at hb

theorem Ordered.setConn (hs' : s'.Custody) {c : ConnID} {k : Conn}
    (hconns : s'.conns = update s.conns c k) (hring : s'.down.ring = s.down.ring)
    (hnext : s'.down.nextSeq = s.down.nextSeq) (haimed : ∀ i q d, s'.Aimed i q d → s.Aimed i q d)
    (hk : Sorted s.down.nextSeq k) (hgt : ∀ i q, s'.Aimed i q c → ∀ r ∈ k.handed, r < q)
    (hbusy : k.handler.busy = true → ∀ i q, ¬ s'.Aimed i q c) : s'.Ordered where
  custody := hs'
  ring := by
    constructor
    · rw [hring]
      exact hs.ring.consecutive
    · rw [hring, hnext]
      exact hs.ring.last_eq
  sorted := by
    rw [hconns, hnext]
    exact (forall_update_iff _ fun _ k => Sorted s.down.nextSeq k).mpr ⟨hk, fun d _ => hs.sorted d⟩
  aimed_le := fun i q d ha => hnext ▸ hs.aimed_le i q d (haimed i q d ha)
  aimed_gt := by
    intro i q d ha
    rw [hconns]
    by_cases hdc : d = c
    · subst hdc
      rw [update_self]
      exact hgt i q ha
    · rw [update_of_ne hdc]
      exact hs.aimed_gt i q d (haimed i q d ha)
  alone := fun i j q r d hi hj => hs.alone i j q r d (haimed i q d hi) (haimed j r d hj)
  window := by
    intro d hd i q ha
    rw [hconns] at hd
    by_cases hdc : d = c
    · subst hdc
      rw [update_self] at hd
      exact hbusy hd i q ha
    · rw [update_of_ne hdc] at hd
      exact hs.window d hd i q (haimed i q d ha)

theorem Ordered.number {i : Fin n} {flag : UInt8} {msgID : UInt32} {body : Bytes}
    (hi : s.pushers i = .buffering flag msgID body false) (hq : s.Quiet (.buffer i))
    (hs' : ({ s.setPusher i (.checking (downFrame flag (s.down.nextSeq + 1) msgID body) false) with
        down := s.down.number flag msgID body } : Delivery n).Custody) :
    ({ s.setPusher i (.checking (downFrame flag (s.down.nextSeq + 1) msgID body) false) with
        down := s.down.number flag msgID body } : Delivery n).Ordered := by
  obtain ⟨hwrap, hquiet⟩ := hq.1 (by simp [numbers, hi])
  have hsucc := toNat_succ hwrap
  have hle : ∀ q, q ≤ s.down.nextSeq → q < s.down.nextSeq + 1 := by
    intro q hq
    rw [UInt32.lt_iff_toNat_lt, hsucc]
    exact Nat.lt_succ_of_le (UInt32.le_iff_toNat_le.mp hq)
  -- nothing was aimed at the bound connection, and it does not wait for frames
  have hfree : ∀ c, s.bound = some c → ∀ j q, ¬ s.Aimed j q c := by
    rintro c hc j q (⟨hun, -⟩ | hdec)
    · rw [((hquiet c hc).2 j).1] at hun
      cases hun
    · exact ((hquiet c hc).2 j).2 _ hdec rfl
  refine ⟨hs', hs.ring.number hwrap flag msgID body, fun c => ?_, fun j q c ha => ?_,
    fun j q c ha r hr => ?_, fun j k q r c hj hk => ?_, fun c hb j q ha => ?_⟩
  · have hk := hs.sorted c
    exact ⟨hk.pairwise, fun q hq => UInt32.le_of_lt (hle q (hk.le_last q hq)), hk.early⟩
  · rcases aimed_of_number ha with ⟨-, rfl, -⟩ | ⟨-, ha⟩
    · exact UInt32.le_refl _
    · exact UInt32.le_of_lt (hle q (hs.aimed_le j q c ha))
  · rcases aimed_of_number ha with ⟨-, rfl, -⟩ | ⟨-, ha⟩
    · exact hle r ((hs.sorted c).le_last r (mem_append_left _ hr))
    · exact hs.aimed_gt j q c ha r hr
  · rcases aimed_of_number hj with ⟨hji, -, hbound⟩ | ⟨-, hj'⟩ <;>
      rcases aimed_of_number hk with ⟨hki, -, hbound'⟩ | ⟨-, hk'⟩
    · exact hji.trans hki.symm
    · exact absurd hk' (hfree c hbound k r)
    · exact absurd hj' (hfree c hbound' j q)
    · exact hs.alone j k q r c hj' hk'
  · rcases aimed_of_number ha with ⟨-, -, hbound⟩ | ⟨-, ha⟩
    · have hb' : (s.conns c).handler.busy = true := hb
      rw [(hquiet c hbound).1] at hb'
      cases hb'
    · exact hs.window c hb j q ha

theorem Ordered.hand {i : Fin n} {f : Frame} {c : ConnID} (hi : s.pushers i = .pushing f false c)
    (hs' : ((s.setConn c ((s.conns c).hand [f.seq] true)).setPusher i .idle).Custody) :
    ((s.setConn c ((s.conns c).hand [f.seq] true)).setPusher i .idle).Ordered := by
  have ha : s.Aimed i f.seq c := .inr (by rw [hi]; rfl)
  have hk := hs.sorted c
  have hidle : (s.conns c).handler.busy = false := by
    by_contra hb
    exact hs.window c (by simpa using hb) i f.seq ha
  rw [Handler.busy, Bool.or_eq_false_iff] at hidle
  have hframes : (s.conns c).handler.frames = [] := by simpa using hidle.2
  have hdue : ((s.conns c).hand [f.seq] true).due = (s.conns c).handed ++ [f.seq] := by
    simp [Conn.due, Conn.hand, hframes]
  refine hs.setConn hs' rfl rfl rfl (fun _ _ _ h => (aimed_of_idle h).2) ⟨?_, ?_, ?_⟩ ?_ ?_
  · rw [hdue]
    refine pairwise_append.mpr ⟨?_, pairwise_singleton _ _, fun r hr q hq => ?_⟩
    · exact (pairwise_append.mp hk.pairwise).1
    · obtain rfl : q = f.seq := by simpa using hq
      exact hs.aimed_gt i f.seq c ha r hr
  · rw [hdue]
    intro q hq
    rcases mem_append.mp hq with hq | hq
    · exact hk.le_last q (mem_append_left _ hq)
    · obtain rfl : q = f.seq := by simpa using hq
      exact hs.aimed_le i f.seq c ha
  · intro he
    rw [Conn.handler_hand, hidle.1] at he
    cases he
  · -- no other push was aimed at `c`
    intro j q hj
    obtain ⟨hji, hj⟩ := aimed_of_idle hj
    exact absurd (hs.alone j i q f.seq c hj ha) hji
  · intro hb
    rw [Conn.handler_hand, Handler.busy, hidle.1, hframes] at hb
    cases hb

theorem Ordered.bind {c : ConnID} {lastSeq : UInt32} {codec : UInt8}
    (hc : (s.conns c).handler = .binding lastSeq codec) (hq : s.Quiet (.bind c))
    (hs' : ({ s.setConn c { s.conns c with
          handler := .onlining s.bound lastSeq codec, wasBound := true } with
        bound := some c } : Delivery n).Custody) :
    ({ s.setConn c { s.conns c with
          handler := .onlining s.bound lastSeq codec, wasBound := true } with
        bound := some c } : Delivery n).Ordered := by
  have hnone := hq.2 rfl
  have hw := (hs.custody.tidy c).binding (by rw [hc]; rfl)
  have hnil := (hs.custody.tidy c).handed_nil hw
  have haimed : ∀ i q d, ({ s.setConn c { s.conns c with
      handler := .onlining s.bound lastSeq codec, wasBound := true } with
      bound := some c } : Delivery n).Aimed i q d → s.Aimed i q d := by
    rintro i q d (⟨hun, -⟩ | hdec)
    · have hun' : (s.pushers i).undecided = some q := hun
      rw [hnone i] at hun'
      cases hun'
    · exact .inr hdec
  have hfree : ∀ i q, ¬ s.Aimed i q c := (hs.custody.tidy c).unaimed hw
  refine hs.setConn hs' rfl rfl rfl haimed ⟨?_, ?_, fun _ => hnil⟩ ?_ ?_
  · simp [Conn.due, hnil, Handler.frames]
  · simp [Conn.due, hnil, Handler.frames]
  · exact fun i q ha => absurd (haimed i q c ha) (hfree i q)
  · exact fun _ i q ha => hfree i q (haimed i q c ha)

theorem Ordered.readRing {c : ConnID} {lastSeq : UInt32}
    (hc : (s.conns c).handler = .replaying lastSeq)
    (hs' : (s.setHandler c (.snapping (since s.down.ring lastSeq).1)).Custody) :
    (s.setHandler c (.snapping (since s.down.ring lastSeq).1)).Ordered := by
  have hearly : (s.conns c).handler.early = true := by rw [hc]; rfl
  have hnil := (hs.sorted c).early hearly
  obtain ⟨hcons, hlast⟩ := hs.ring.since lastSeq
  have hfree := hs.window c (by rw [Handler.busy, hearly]; rfl)
  refine hs.setConn hs' rfl rfl rfl (fun _ _ _ => id) ⟨?_, ?_, fun h => by cases h⟩ ?_ ?_
  · simpa [Conn.due, hnil, Handler.frames] using hcons.pairwise
  · intro q hq
    simp only [Conn.due, hnil, Handler.frames, nil_append] at hq
    have hr := getLast?_eq_some_getLast (ne_nil_of_mem hq)
    exact (hlast _ hr) ▸ hcons.le_getLast hq hr
  · exact fun i q ha => absurd ha (hfree i q)
  · exact fun _ => hfree

end

theorem Sorted.of_due {last : UInt32} {k k' : Conn} (hk : Sorted last k) (hdue : k'.due <+: k.due)
    (hearly : k'.handler.early = true → k'.handed = []) : Sorted last k' :=
  ⟨hk.pairwise.sublist hdue.sublist, fun q hq => hk.le_last q (hdue.subset hq), hearly⟩

theorem Ordered.step {a : DeliveryAct n} (hs : s.Ordered) (hq : s.Quiet a)
    (h : s.step writeCap a = some s') : s'.Ordered := by
  have hs' := hs.custody.step h
  rcases calm_or_notable h with hcalm | hnot
  · exact hs.calm hcalm
  cases hnot with
  | number i flag msgID body hi => exact hs.number hi hq hs'
  | hand i f c hi => exact hs.hand hi hs'
  | rotate c _ _ hc | untold c _ _ hc =>
    refine hs.setConn hs' rfl rfl rfl (fun _ _ _ => id) ((hs.sorted c).of_due ?_ ?_) ?_ ?_
    · simp [Conn.due, hc, Handler.frames]
    · exact fun h => by cases h
    · exact fun i q ha => hs.aimed_gt i q c ha
    · exact fun h => by cases h
  | bind c lastSeq codec hc => exact hs.bind hc hq hs'
  | online c old lastSeq codec hc =>
    have hearly : (s.conns c).handler.early = true := by rw [hc]; rfl
    refine hs.setConn hs' rfl rfl rfl (fun _ _ _ => id) ((hs.sorted c).of_due ?_ ?_) ?_ ?_
    · simp [Conn.due, hc, Handler.frames]
    · exact fun _ => (hs.sorted c).early hearly
    · exact fun i q ha => hs.aimed_gt i q c ha
    · exact fun _ => hs.window c (by rw [Handler.busy, hearly]; rfl)
  | readRing c lastSeq hc => exact hs.readRing hc hs'
  | told c frames snaps hc =>
    refine hs.setConn hs' rfl rfl rfl (fun _ _ _ => id) ((hs.sorted c).of_due ?_ ?_) ?_ ?_
    · simp [Conn.due, Conn.hand, hc, Handler.frames]
    · exact fun h => by cases h
    · intro i q ha r hr
      exact hs.aimed_gt i q c ha r (by simpa [Conn.hand] using hr)
    · intro hb
      exact hs.window c (by simpa [Handler.busy, Handler.early, Handler.frames, hc] using hb)
  | written c f frames snaps hc =>
    -- the frame moves from those waited for to those handed over; nothing is aimed at `c`
    have hfree := hs.window c (by simp [Handler.busy, hc, Handler.early, Handler.frames])
    refine hs.setConn hs' rfl rfl rfl (fun _ _ _ => id) ((hs.sorted c).of_due ?_ ?_) ?_ ?_
    · simp [Conn.due, Conn.hand, hc, Handler.frames]
    · exact fun h => by cases h
    · exact fun i q ha => absurd ha (hfree i q)
    · exact fun _ => hfree
  | refused c f frames snaps hc hr =>
    have hfree := hs.window c (by simp [Handler.busy, hc, Handler.early, Handler.frames])
    refine hs.setConn hs' rfl rfl rfl (fun _ _ _ => id) ((hs.sorted c).of_due ?_ ?_) ?_ ?_
    · simp [Conn.due, Handler.frames]
    · exact fun h => by cases h
    · exact fun i q ha => absurd ha (hfree i q)
    · exact fun _ => hfree

/-! ### Runs -/

variable {codec : UInt8} {replayCap : ℕ} {hcap : 0 < replayCap} {acts : List (DeliveryAct n)}

theorem ordered_newDelivery : (newDelivery n codec replayCap hcap).Ordered := by
  have hconn : ∀ c, ((newDelivery n codec replayCap hcap).conns c).due = [] ∧
      ((newDelivery n codec replayCap hcap).conns c).handed = [] ∧
      ((newDelivery n codec replayCap hcap).conns c).handler.busy = false := by
    intro c
    by_cases hc : c = 0 <;>
      simp [newDelivery, hc, Conn.due, Handler.frames, Handler.busy, Handler.early]
  have hnone : ∀ i q c, ¬ (newDelivery n codec replayCap hcap).Aimed i q c := by
    rintro i q c (⟨hun, -⟩ | hdec)
    · cases hun
    · cases hdec
  refine ⟨custody_newDelivery, ⟨?_, ?_⟩, fun c => ⟨?_, ?_, fun _ => (hconn c).2.1⟩, ?_, ?_, ?_, ?_⟩
  · simp [newDelivery, newDownlink, newRingBuffer]
  · simp [newDelivery, newDownlink, newRingBuffer]
  · simp [(hconn c).1]
  · simp [(hconn c).1]
  · exact fun i q c ha => absurd ha (hnone i q c)
  · exact fun i q c ha => absurd ha (hnone i q c)
  · exact fun i j q r c ha => absurd ha (hnone i q c)
  · exact fun c hb => absurd hb (by simp [(hconn c).2.2])

theorem ordered_of_run
    (hrun : run (step writeCap) (newDelivery n codec replayCap hcap) acts = some s)
    (hquiet : Along (step writeCap) Quiet (newDelivery n codec replayCap hcap) acts) :
    s.Ordered :=
  invariant_of_run (fun _ _ _ hs hq h => hs.step hq h) ordered_newDelivery hquiet hrun

/-- **Reliable frames arrive in order**: those handed to one connection have increasing numbers. -/
theorem handed_increasing
    (hrun : run (step writeCap) (newDelivery n codec replayCap hcap) acts = some s)
    (hquiet : Along (step writeCap) Quiet (newDelivery n codec replayCap hcap) acts)
    (c : ConnID) : (s.conns c).handed.Pairwise (· < ·) :=
  (pairwise_append.mp ((ordered_of_run hrun hquiet).sorted c).pairwise).1

/-- A push of pusher `i` up to the hand-over. -/
def pushActs (i : Fin n) (body : Bytes) : List (DeliveryAct n) :=
  [.push i 7 body false, .readCodec i, .buffer i, .checkState i, .readConn i]

/-- The login response is written and the read pump started. -/
def loginActs : List (DeliveryAct n) := [.respond 0 true, .startPump 0]

def disconnectActs : List (DeliveryAct n) := [.hangUp 0, .goOffline 0, .closeSelf 0]

/-- Connection `1` reconnects with the first token and goes online. -/
def rebindActs (lastSeq : UInt32) : List (DeliveryAct n) :=
  [.reconnect 1 0 lastSeq 0, .bind 1, .goOnline 1, .closeOld 1]

/-- It reads what it has to replay and responds. -/
def resumeActs : List (DeliveryAct n) := [.readRing 1, .readSnaps 1, .respond 1 true]

/-- A push on the first connection, one while offline, a reconnect that replays it, one more. -/
def quietActs : List (DeliveryAct 2) :=
  loginActs ++ pushActs 0 [1] ++ [DeliveryAct.deliver 0 true] ++ disconnectActs ++
    [DeliveryAct.push 1 7 [2] false, .readCodec 1, .buffer 1, .checkState 1] ++
    rebindActs 1 ++ resumeActs ++ [DeliveryAct.write 1 true, .startPump 1] ++ pushActs 0 [3] ++
    [DeliveryAct.deliver 0 true]

theorem handed_increasing_quiet : ∃ s,
    run (step 4) (newDelivery 2 0 8 (by decide)) quietActs = some s ∧
      (s.conns 0).handed = [1] ∧ (s.conns 1).handed = [2, 3] ∧
      (s.conns 1).handed.Pairwise (· < ·) := by
  obtain ⟨s, hrun, h0, h1⟩ := exists_of_run (step 4) (newDelivery 2 0 8 (by decide))
    quietActs (fun s => (s.conns 0).handed = [1] ∧ (s.conns 1).handed = [2, 3])
    (by decide +kernel)
  exact ⟨s, hrun, h0, h1, handed_increasing hrun (by decide +kernel) 1⟩

/-- Two pushes take their numbers and reach the connection the other way round. -/
def racingActs : List (DeliveryAct 2) :=
  loginActs ++ pushActs 0 [1] ++ pushActs 1 [2] ++ [DeliveryAct.deliver 1 true, .deliver 0 true]

/-- A frame is buffered while offline; after the reconnect the next one is pushed, and only then the
ring is replayed. -/
def overtakingActs : List (DeliveryAct 2) :=
  loginActs ++ disconnectActs ++
    [DeliveryAct.push 0 7 [1] false, .readCodec 0, .buffer 0, .checkState 0] ++
    rebindActs 0 ++ pushActs 0 [2] ++ [DeliveryAct.deliver 0 true] ++ resumeActs ++
    [DeliveryAct.write 1 true, .write 1 true]

/-- Both races hand frames over out of order. -/
theorem handed_out_of_order :
    (∃ s, run (step 4) (newDelivery 2 0 8 (by decide)) racingActs = some s ∧
      (s.conns 0).handed = [2, 1]) ∧
    (∃ s, run (step 4) (newDelivery 2 0 8 (by decide)) overtakingActs = some s ∧
      (s.conns 1).handed = [2, 1, 2]) :=
  ⟨exists_of_run _ _ _ _ (by decide +kernel), exists_of_run _ _ _ _ (by decide +kernel)⟩

end Delivery

end RanGame.Session
