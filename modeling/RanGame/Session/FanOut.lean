import RanGame.Protocol.Messages
import RanGame.Session.Delivery

/-!
# The codec of a push

`PushReliable` and `PushSnapshot` of `internal/session/session.go` read the codec of the session to
encode the message, and `fanOut` of `internal/room/room.go` to choose among the bodies it has
encoded; `pushEncoded` reads it again for the flag. A reconnect may set the codec in between.
-/

namespace RanGame.Session

open Function List Machine Option Transport Protocol

/-! ### Goroutines that push -/

/-- Where a goroutine that pushes is. -/
inductive Caller (ι Msg : Type)
  | idle
  /-- `PushReliable` or `PushSnapshot`, about to read the codec and encode. -/
  | encoding (u : ι) (msgID : UInt32) (msg : Msg) (snapshot : Bool)
  | pushing (u : ι)
  /-- `fanOut`, with the members still to come and the bodies encoded so far. -/
  | fanningOut (todo : List ι) (msgID : UInt32) (msg : Msg) (snapshot : Bool)
    (bodies : UInt8 → Option (Option Bytes))
  /-- `fanOut`, in `PushEncoded` of one member. -/
  | fanPushing (u : ι) (todo : List ι) (msgID : UInt32) (msg : Msg) (snapshot : Bool)
    (bodies : UInt8 → Option (Option Bytes))

structure FanOut (ι Msg : Type) (n : ℕ) where
  sessions : ι → Delivery n
  callers : Fin n → Caller ι Msg
  /-- As history, the messages that have been pushed, with their numbers. -/
  pushed : List (UInt32 × Msg)

inductive FanAct (ι Msg : Type) (n : ℕ)
  | push (g : Fin n) (u : ι) (msgID : UInt32) (msg : Msg) (snapshot : Bool)
  /-- A call of `fanOut` for these members, in this order. -/
  | broadcast (g : Fin n) (members : List ι) (msgID : UInt32) (msg : Msg) (snapshot : Bool)
  /-- Read the codec of the session, encode, and call `pushEncoded`. -/
  | encode (g : Fin n)
  | returned (g : Fin n)
  | session (u : ι) (a : DeliveryAct n)

namespace FanOut

variable {ι Msg : Type} {n : ℕ} [DecidableEq ι] (marshal : Codec → Msg → Option Bytes)
  (writeCap : ℕ) (s : FanOut ι Msg n)

def setCaller (g : Fin n) (p : Caller ι Msg) : FanOut ι Msg n :=
  { s with callers := update s.callers g p }

def startPush (g : Fin n) (u : ι) (msgID : UInt32) (body : Bytes) (snapshot : Bool)
    (next : Caller ι Msg) : Option (FanOut ι Msg n) :=
  ((s.sessions u).step writeCap (.push g msgID body snapshot)).map fun d =>
    { s.setCaller g next with sessions := update s.sessions u d }

/-- The body of a message in one codec, encoded before or now. `MustGet` panics without the codec.
-/
def bodyFor (bodies : UInt8 → Option (Option Bytes)) (msg : Msg) (typ : UInt8) :
    Option (Option Bytes) :=
  match bodies typ with
  | some body => some body
  | none => (Codec.get typ).map fun c => marshal c msg

/-- One member of `fanOut`. A message that cannot be encoded is not pushed. -/
def encodeStep (g : Fin n) : Option (FanOut ι Msg n) :=
  match s.callers g with
  | .encoding u msgID msg snapshot =>
    match Codec.get (s.sessions u).down.codec with
    | none => none
    | some c =>
      match marshal c msg with
      | none => some (s.setCaller g .idle)
      | some body => s.startPush writeCap g u msgID body snapshot (.pushing u)
  | .fanningOut [] _ _ _ _ => some (s.setCaller g .idle)
  | .fanningOut (u :: todo) msgID msg snapshot bodies =>
    let typ := (s.sessions u).down.codec
    match bodyFor marshal bodies msg typ with
    | none => none
    | some none =>
      some (s.setCaller g (.fanningOut todo msgID msg snapshot (update bodies typ (some none))))
    | some (some body) =>
      s.startPush writeCap g u msgID body snapshot
        (.fanPushing u todo msgID msg snapshot (update bodies typ (some (some body))))
  | _ => none

/-- `pushEncoded` returns when the push of this goroutine has gone through the session. -/
def returnedStep (g : Fin n) : Option (FanOut ι Msg n) :=
  match s.callers g with
  | .pushing u => if (s.sessions u).pushers g = .idle then some (s.setCaller g .idle) else none
  | .fanPushing u todo msgID msg snapshot bodies =>
    if (s.sessions u).pushers g = .idle then
      some (s.setCaller g (.fanningOut todo msgID msg snapshot bodies))
    else none
  | _ => none

/-- What a session does by itself. Pushes come from goroutines, and `handleReconnect` looks up the
codec first. -/
def allowed : DeliveryAct n → Bool
  | .push _ _ _ _ => false
  | .reconnect _ _ _ codec => (Codec.get codec).isSome
  | _ => true

def step : FanAct ι Msg n → Option (FanOut ι Msg n)
  | .push g u msgID msg snapshot =>
    match s.callers g with
    | .idle => some { s.setCaller g (.encoding u msgID msg snapshot) with
        pushed := (msgID, msg) :: s.pushed }
    | _ => none
  | .broadcast g members msgID msg snapshot =>
    match s.callers g with
    | .idle => some { s.setCaller g (.fanningOut members msgID msg snapshot fun _ => none) with
        pushed := (msgID, msg) :: s.pushed }
    | _ => none
  | .encode g => s.encodeStep marshal writeCap g
  | .returned g => s.returnedStep g
  | .session u a =>
    if allowed a then
      ((s.sessions u).step writeCap a).map fun d =>
        { s with sessions := update s.sessions u d }
    else none

end FanOut

/-- Sessions right after their players have logged in, with the codecs of their logins. -/
def newFanOut {ι : Type} (Msg : Type) (n : ℕ) (codec : ι → Codec) (replayCap : ℕ)
    (hcap : 0 < replayCap) : FanOut ι Msg n where
  sessions u := newDelivery n (codec u).type replayCap hcap
  callers _ := .idle
  pushed := []

/-! ### Frames and the codec of their bodies -/

section Labels

variable {n writeCap : ℕ} (P : Codec → UInt32 → Bytes → Prop)

/-- A frame whose flag names a codec for which `P` holds of number and body. -/
def Labelled (f : Frame) : Prop := ∃ c, codecOf f = some c ∧ P c f.msgID f.body

/-- A push, for a session with the given codec. -/
def Pusher.Labelled (codec : UInt8) : Pusher → Prop
  | .idle => True
  | .encoding msgID body _ => ∃ c, Codec.get codec = some c ∧ P c msgID body
  | .buffering flag msgID body _ =>
    ∃ c, Codec.get (flag &&& flagCodecMask) = some c ∧ P c msgID body
  | .checking f _ | .routing f _ | .pushing f _ _ => Session.Labelled P f

/-- The goroutine of a connection: the codec it is about to set, or the frames it is to write. -/
def Handler.Labelled : Handler → Prop
  | .binding _ codec | .onlining _ _ codec => (Codec.get codec).isSome = true
  | .snapping frames => ∀ f ∈ frames, Session.Labelled P f
  | .responding frames snaps | .writing frames snaps =>
    (∀ f ∈ frames, Session.Labelled P f) ∧ ∀ f ∈ snaps, Session.Labelled P f
  | _ => True

/-- Every frame that a session holds is labelled. -/
structure Delivery.Labelled (s : Delivery n) : Prop where
  codec : (Codec.get s.down.codec).isSome = true
  ring : ∀ f ∈ s.down.ring.toList, Session.Labelled P f
  snaps : ∀ f ∈ s.down.snaps, Session.Labelled P f
  pushers : ∀ i, (s.pushers i).Labelled P s.down.codec
  conns : ∀ c, (s.conns c).handler.Labelled P

/-- Has the push got its body, and not read the codec for its flag? -/
def Pusher.isEncoding : Pusher → Bool
  | .encoding _ _ _ => true
  | _ => false

/-- If connection `c` goes online now, will every push that has not read the codec for its flag
still read the same? -/
def Delivery.keepsCodec (s : Delivery n) (c : ConnID) : Bool :=
  match (s.conns c).handler with
  | .onlining _ _ codec =>
    codec == s.down.codec || (List.finRange n).all fun i => !(s.pushers i).isEncoding
  | _ => true

/-- The frame that an action hands over to a connection. -/
def Delivery.sends (s : Delivery n) : DeliveryAct n → Option Frame
  | .deliver i true =>
    match s.pushers i with
    | .pushing f _ _ => some f
    | _ => none
  | .write c true =>
    match (s.conns c).handler with
    | .writing (f :: _) _ | .writing [] (f :: _) => some f
    | _ => none
  | _ => none

variable {P} {s s' : Delivery n}

variable {i : Fin n} {c : ConnID} {f : Frame} {accepted : Bool} {Q : Codec → UInt32 → Bytes → Prop}

theorem Delivery.Labelled.setPusher (h : s.Labelled P) {p : Pusher}
    (hp : p.Labelled P s.down.codec) : (s.setPusher i p).Labelled P :=
  { h with pushers := forall_update_iff _ _ |>.mpr ⟨hp, fun j _ => h.pushers j⟩ }

theorem Delivery.Labelled.setConn (h : s.Labelled P) {k : Conn} (hk : k.handler.Labelled P) :
    (s.setConn c k).Labelled P :=
  { h with
    conns := (forall_update_iff s.conns fun _ k => k.handler.Labelled P).mpr
      ⟨hk, fun d _ => h.conns d⟩ }

theorem Delivery.Labelled.setHandler (h : s.Labelled P) {k : Handler} (hk : k.Labelled P) :
    (s.setHandler c k).Labelled P :=
  h.setConn hk

theorem mem_of_mem_put {c : SnapshotCache} {g : Frame} (hg : g ∈ c.put f) : g = f ∨ g ∈ c := by
  rcases mem_cons.mp hg with rfl | hg
  · exact .inl rfl
  · exact .inr (mem_of_mem_filter hg)

section

variable (h : s.Labelled P)

include h

/-- `seqMu` or `snapMu`: the frame is labelled as the push has it. -/
theorem Delivery.Labelled.bufferStep (hstep : s.bufferStep i = some s') : s'.Labelled P := by
  have hi := h.pushers i
  rw [Delivery.bufferStep] at hstep
  split at hstep <;> cases hstep
  next flag msgID body hp =>
    rw [hp] at hi
    have hset : (s.setPusher i (.checking (downFrame flag 0 msgID body) true)).Labelled P :=
      h.setPusher hi
    refine { hset with snaps := fun g hg => ?_ }
    rcases mem_of_mem_put hg with rfl | hg
    · exact hi
    · exact h.snaps g hg
  next flag msgID body hp =>
    rw [hp] at hi
    have hset : (s.setPusher i
        (.checking (downFrame flag (s.down.nextSeq + 1) msgID body) false)).Labelled P :=
      h.setPusher hi
    refine { hset with ring := fun g hg => ?_ }
    simp only [Downlink.number, Ring.toList_push] at hg
    rcases mem_append.mp (mem_of_mem_drop hg) with hg | hg
    · exact h.ring g hg
    · obtain rfl := mem_singleton.mp hg
      exact hi

theorem Delivery.Labelled.writeStep (hstep : s.writeStep writeCap c accepted = some s') :
    s'.Labelled P := by
  have hc := h.conns c
  rw [Delivery.writeStep] at hstep
  split at hstep
  next f frames snaps hw =>
    rw [hw] at hc
    obtain ⟨-, ⟨⟩⟩ := ite_none_right_eq_some.mp hstep
    refine h.setConn ⟨fun g hg => ?_, hc.2⟩
    cases accepted with
    | true => exact hc.1 g (mem_cons_of_mem _ hg)
    | false => cases hg
  next f snaps hw =>
    rw [hw] at hc
    obtain ⟨-, ⟨⟩⟩ := ite_none_right_eq_some.mp hstep
    refine h.setConn ⟨fun g hg => (by cases hg), fun g hg => ?_⟩
    cases accepted with
    | true => exact hc.2 g (mem_cons_of_mem _ hg)
    | false => cases hg
  · cases hstep

theorem Delivery.Labelled.respondStep (hstep : s.respondStep writeCap c accepted = some s') :
    s'.Labelled P := by
  have hc := h.conns c
  rw [Delivery.respondStep] at hstep
  split at hstep
  next frames snaps hw =>
    rw [hw] at hc
    obtain ⟨-, ⟨⟩⟩ := ite_none_right_eq_some.mp hstep
    have hset : (s.setConn c { (s.conns c).hand [] accepted with
        handler := if accepted then .writing frames snaps else .reading }).Labelled P := by
      refine h.setConn ?_
      cases accepted with
      | true => exact hc
      | false => trivial
    exact { hset with }
  · cases hstep

theorem Delivery.Labelled.deliverStep (hstep : s.deliverStep writeCap i accepted = some s') :
    s'.Labelled P := by
  rw [Delivery.deliverStep] at hstep
  split at hstep
  next f snapshot c hp =>
    obtain ⟨-, ⟨⟩⟩ := ite_none_right_eq_some.mp hstep
    have hc : Handler.Labelled P
        ((s.conns c).hand (if snapshot then [] else [f.seq]) accepted).handler := by
      cases accepted <;> exact h.conns c
    exact Delivery.Labelled.setPusher (h.setConn hc) trivial
  · cases hstep

theorem Delivery.Labelled.hangUpStep (hstep : s.hangUpStep c = some s') : s'.Labelled P := by
  rw [Delivery.hangUpStep] at hstep
  split at hstep
  · split at hstep <;> cases hstep
    · exact { h.setHandler (c := c) (k := .unbinding) trivial with }
    · exact h.setHandler trivial
  · cases hstep
    exact h.setConn trivial
  · cases hstep

/-- **The codec changes** only when no push would notice. -/
theorem Delivery.Labelled.goOnline {old : Option ConnID} {lastSeq : UInt32} {codec : UInt8}
    (hc : (s.conns c).handler = .onlining old lastSeq codec) (hkeep : s.keepsCodec c = true) :
    ({ s.setHandler c (.closingOld old lastSeq) with
      st := .stateOnline, down := { s.down with codec := codec } } : Delivery n).Labelled P := by
  have hset : (s.setHandler c (.closingOld old lastSeq)).Labelled P := h.setHandler trivial
  have hcodec := h.conns c
  rw [hc] at hcodec
  refine { hset with codec := hcodec, pushers := fun i => ?_ }
  have hi := h.pushers i
  simp only [Delivery.keepsCodec, hc, Bool.or_eq_true, beq_iff_eq] at hkeep
  rcases hkeep with rfl | hnone
  · exact hi
  · have hi' := all_eq_true.mp hnone i (mem_finRange i)
    show (s.pushers i).Labelled P codec
    cases hp : s.pushers i with
    | encoding msgID body snapshot => simp [hp, Pusher.isEncoding] at hi'
    | _ =>
      rw [hp] at hi
      exact hi

/-- **One step of a session**: pushes come with a body for its codec, and the codec is kept. -/
theorem Delivery.Labelled.step {a : DeliveryAct n}
    (hpush : ∀ i msgID body snapshot, a = .push i msgID body snapshot →
      ∃ c, Codec.get s.down.codec = some c ∧ P c msgID body)
    (hcodec : ∀ c token lastSeq codec, a = .reconnect c token lastSeq codec →
      (Codec.get codec).isSome = true)
    (hkeep : ∀ c, a = .goOnline c → s.keepsCodec c = true)
    (hstep : s.step writeCap a = some s') : s'.Labelled P := by
  cases a with
  | push i msgID body snapshot =>
    obtain ⟨-, ⟨⟩⟩ := ite_none_right_eq_some.mp hstep
    exact h.setPusher (hpush i msgID body snapshot rfl)
  | readCodec i =>
    have hi := h.pushers i
    simp only [Delivery.step] at hstep
    split at hstep <;> cases hstep
    next msgID body snapshot hp =>
      rw [hp] at hi
      obtain ⟨c, hc, hbody⟩ := hi
      refine h.setPusher ⟨c, ?_, hbody⟩
      rw [Codec.type_of_get hc]
      cases c <;> cases snapshot <;> decide
  | buffer i => exact h.bufferStep hstep
  | checkState i | readConn i =>
    have hi := h.pushers i
    simp only [Delivery.step] at hstep
    split at hstep <;> cases hstep
    next f snapshot hp =>
      rw [hp] at hi
      refine h.setPusher ?_
      split
      · exact hi
      · trivial
  | deliver i accepted => exact h.deliverStep hstep
  | reconnect c token lastSeq codec =>
    obtain ⟨-, hstep⟩ := ite_none_right_eq_some.mp hstep
    split at hstep <;> cases hstep
    · exact { h.setHandler (c := c) (k := .binding lastSeq codec)
        (hcodec c token lastSeq codec rfl) with }
    · exact h
  | bind c =>
    have hc := h.conns c
    simp only [Delivery.step] at hstep
    split at hstep <;> cases hstep
    next lastSeq codec hb =>
      rw [hb] at hc
      have hset : (s.setConn c { s.conns c with
          handler := .onlining s.bound lastSeq codec, wasBound := true }).Labelled P := h.setConn hc
      exact { hset with }
  | goOnline c =>
    simp only [Delivery.step] at hstep
    split at hstep <;> cases hstep
    next old lastSeq codec hc => exact h.goOnline hc (hkeep c rfl)
  | closeOld c =>
    simp only [Delivery.step] at hstep
    split at hstep
    · split at hstep <;> cases hstep
      · exact h.setHandler trivial
      · refine Delivery.Labelled.setHandler ?_ trivial
        split
        · exact h
        · exact h.setConn (h.conns _)
    · cases hstep
  | readRing c =>
    simp only [Delivery.step] at hstep
    split at hstep <;> cases hstep
    · refine h.setHandler fun f hf => h.ring f ?_
      rw [since] at hf
      split at hf
      · cases hf
      · split at hf
        · cases hf
        · exact mem_of_mem_filter hf
  | readSnaps c =>
    have hc := h.conns c
    simp only [Delivery.step] at hstep
    split at hstep <;> cases hstep
    next frames hs =>
      rw [hs] at hc
      exact h.setHandler ⟨hc, h.snaps⟩
  | respond c accepted => exact h.respondStep hstep
  | write c accepted => exact h.writeStep hstep
  | startPump c =>
    obtain ⟨-, ⟨⟩⟩ := ite_none_right_eq_some.mp hstep
    exact h.setHandler trivial
  | hangUp c => exact h.hangUpStep hstep
  | goOffline c =>
    obtain ⟨-, ⟨⟩⟩ := ite_none_right_eq_some.mp hstep
    exact { h.setHandler (c := c) (k := .leaving) trivial with }
  | closeSelf c =>
    obtain ⟨-, ⟨⟩⟩ := ite_none_right_eq_some.mp hstep
    exact h.setConn trivial
  | flush c | drop c =>
    cases hstep
    exact h.setConn (h.conns c)
  | other c =>
    obtain ⟨-, ⟨⟩⟩ := ite_none_right_eq_some.mp hstep
    exact h.setConn (h.conns c)
  | release =>
    cases hstep
    exact { h with }

theorem Delivery.Labelled.sends {a : DeliveryAct n} (hf : s.sends a = some f) :
    Session.Labelled P f := by
  rw [Delivery.sends.eq_def] at hf
  split at hf
  next i =>
    have hi := h.pushers i
    split at hf <;> cases hf
    next hp => rwa [hp] at hi
  next c =>
    have hc := h.conns c
    split at hf <;> cases hf
    next hw =>
      rw [hw] at hc
      exact hc.1 f (mem_cons_self ..)
    next hw =>
      rw [hw] at hc
      exact hc.2 f (mem_cons_self ..)
  · cases hf

end

/-! ### Sessions and goroutines together -/

theorem Labelled.mono {P : Codec → UInt32 → Bytes → Prop} (hPQ : ∀ c id b, P c id b → Q c id b)
    (h : Labelled P f) : Labelled Q f :=
  h.imp fun c hc => ⟨hc.1, hPQ c _ _ hc.2⟩

theorem Delivery.Labelled.mono {P : Codec → UInt32 → Bytes → Prop}
    (hPQ : ∀ c id b, P c id b → Q c id b) (h : s.Labelled P) : s.Labelled Q where
  __ := h
  ring f hf := (h.ring f hf).mono hPQ
  snaps f hf := (h.snaps f hf).mono hPQ
  pushers i := by
    have hi := h.pushers i
    cases hp : s.pushers i with
    | idle => trivial
    | encoding msgID body snapshot | buffering flag msgID body snapshot =>
      rw [hp] at hi
      exact hi.imp fun c hc => ⟨hc.1, hPQ c _ _ hc.2⟩
    | checking f snapshot | routing f snapshot | pushing f snapshot c =>
      rw [hp] at hi
      exact Session.Labelled.mono hPQ hi
  conns c := by
    have hc := h.conns c
    cases hp : (s.conns c).handler with
    | snapping frames =>
      rw [hp] at hc
      exact fun f hf => (hc f hf).mono hPQ
    | responding frames snaps | writing frames snaps =>
      rw [hp] at hc
      exact ⟨fun f hf => (hc.1 f hf).mono hPQ, fun f hf => (hc.2 f hf).mono hPQ⟩
    | binding lastSeq codec | onlining old lastSeq codec =>
      rw [hp] at hc
      exact hc
    | _ => trivial

end Labels

namespace FanOut

variable {ι Msg : Type} {n writeCap : ℕ} {marshal : Codec → Msg → Option Bytes}
  {s s' : FanOut ι Msg n}

/-- The body encodes, under the codec, a message that was pushed under the number. -/
def Encodes (marshal : Codec → Msg → Option Bytes) (pushed : List (UInt32 × Msg)) (c : Codec)
    (msgID : UInt32) (body : Bytes) : Prop :=
  ∃ msg, (msgID, msg) ∈ pushed ∧ marshal c msg = some body

/-- A goroutine pushes a message that is on record, and the bodies it keeps are encodings of it. -/
def CallerOk (marshal : Codec → Msg → Option Bytes) (pushed : List (UInt32 × Msg)) :
    Caller ι Msg → Prop
  | .encoding _ msgID msg _ => (msgID, msg) ∈ pushed
  | .fanningOut _ msgID msg _ bodies | .fanPushing _ _ msgID msg _ bodies =>
    (msgID, msg) ∈ pushed ∧
      ∀ typ body, bodies typ = some body → ∃ c, Codec.get typ = some c ∧ marshal c msg = body
  | _ => True

structure Labelled (marshal : Codec → Msg → Option Bytes) (s : FanOut ι Msg n) : Prop where
  sessions : ∀ u, (s.sessions u).Labelled (Encodes marshal s.pushed)
  callers : ∀ g, CallerOk marshal s.pushed (s.callers g)

/-- A reconnect sets another codec only while no push is between its two reads of it. -/
def steady (s : FanOut ι Msg n) : FanAct ι Msg n → Bool
  | .session u (.goOnline c) => (s.sessions u).keepsCodec c
  | _ => true

variable {g : Fin n}

theorem Labelled.setCaller (h : s.Labelled marshal) {p : Caller ι Msg}
    (hp : CallerOk marshal s.pushed p) : (s.setCaller g p).Labelled marshal :=
  ⟨h.sessions, (forall_update_iff s.callers fun _ p => CallerOk marshal s.pushed p).mpr
    ⟨hp, fun g _ => h.callers g⟩⟩

theorem CallerOk.cons {pushed : List (UInt32 × Msg)} (m : UInt32 × Msg) {p : Caller ι Msg}
    (h : CallerOk marshal pushed p) : CallerOk marshal (m :: pushed) p := by
  cases p with
  | encoding u msgID msg snapshot => exact mem_cons_of_mem m h
  | fanningOut todo msgID msg snapshot bodies | fanPushing u todo msgID msg snapshot bodies =>
    exact ⟨mem_cons_of_mem m h.1, h.2⟩
  | _ => trivial

theorem Labelled.record (h : s.Labelled marshal) (m : UInt32 × Msg) :
    ({ s with pushed := m :: s.pushed } : FanOut ι Msg n).Labelled marshal :=
  ⟨fun u => (h.sessions u).mono fun _ _ _ ⟨msg, hmem, hbody⟩ =>
      ⟨msg, mem_cons_of_mem m hmem, hbody⟩,
    fun g => (h.callers g).cons m⟩

theorem labelled_new (codec : ι → Codec) (replayCap : ℕ) (hcap : 0 < replayCap) :
    (newFanOut Msg n codec replayCap hcap).Labelled marshal := by
  refine ⟨fun u => ⟨?_, by simp [newFanOut, newDelivery, newDownlink, newRingBuffer], ?_,
    fun _ => trivial, fun c => ?_⟩, fun _ => trivial⟩
  · show (Codec.get (codec u).type).isSome = true
    cases codec u <;> rfl
  · exact forall_mem_nil _
  · simp only [newFanOut, newDelivery]
    split
    · exact ⟨forall_mem_nil _, forall_mem_nil _⟩
    · trivial

theorem Labelled.returnedStep (h : s.Labelled marshal) (hstep : s.returnedStep g = some s') :
    s'.Labelled marshal := by
  have hg := h.callers g
  rw [FanOut.returnedStep] at hstep
  split at hstep
  · obtain ⟨-, ⟨⟩⟩ := ite_none_right_eq_some.mp hstep
    exact h.setCaller trivial
  next hcall =>
    rw [hcall] at hg
    obtain ⟨-, ⟨⟩⟩ := ite_none_right_eq_some.mp hstep
    exact h.setCaller hg
  · cases hstep

variable [DecidableEq ι]

theorem Labelled.setSession (h : s.Labelled marshal) {u : ι} {d : Delivery n}
    (hd : d.Labelled (Encodes marshal s.pushed)) :
    ({ s with sessions := update s.sessions u d } : FanOut ι Msg n).Labelled marshal :=
  ⟨(forall_update_iff s.sessions fun _ d => d.Labelled (Encodes marshal s.pushed)).mpr
    ⟨hd, fun v _ => h.sessions v⟩, h.callers⟩

theorem Labelled.startPush (h : s.Labelled marshal) {u : ι} {msgID : UInt32} {body : Bytes}
    {snapshot : Bool} {next : Caller ι Msg}
    (hstep : s.startPush writeCap g u msgID body snapshot next = some s')
    (hbody : ∃ c, Codec.get (s.sessions u).down.codec = some c ∧
      Encodes marshal s.pushed c msgID body)
    (hnext : CallerOk marshal s.pushed next) : s'.Labelled marshal := by
  obtain ⟨d, hd, rfl⟩ := map_eq_some_iff.mp hstep
  refine Labelled.setSession (h.setCaller hnext) ((h.sessions u).step ?_ ?_ ?_ hd)
  · rintro _ _ _ _ ⟨⟩
    exact hbody
  · rintro _ _ _ _ ⟨⟩
  · rintro _ ⟨⟩

theorem exists_of_bodyFor {bodies : UInt8 → Option (Option Bytes)} {msg : Msg} {typ : UInt8}
    {body : Option Bytes}
    (hbodies : ∀ typ body, bodies typ = some body →
      ∃ c, Codec.get typ = some c ∧ marshal c msg = body)
    (h : bodyFor marshal bodies msg typ = some body) :
    ∃ c, Codec.get typ = some c ∧ marshal c msg = body := by
  rw [bodyFor] at h
  split at h
  next hb =>
    cases h
    exact hbodies typ body hb
  · exact map_eq_some_iff.mp h

theorem Labelled.encodeStep (h : s.Labelled marshal)
    (hstep : s.encodeStep marshal writeCap g = some s') : s'.Labelled marshal := by
  have hg := h.callers g
  rw [FanOut.encodeStep] at hstep
  split at hstep
  next u msgID msg snapshot hcall =>
    rw [hcall] at hg
    split at hstep
    · cases hstep
    next c hc =>
      split at hstep
      · cases hstep
        exact h.setCaller trivial
      next body hbody => exact h.startPush hstep ⟨c, hc, msg, hg, hbody⟩ trivial
  · cases hstep
    exact h.setCaller trivial
  next u todo msgID msg snapshot bodies hcall =>
    rw [hcall] at hg
    obtain ⟨hmem, hbodies⟩ := hg
    -- the map with one more body in it
    have hkept : ∀ body, bodyFor marshal bodies msg (s.sessions u).down.codec = some body →
        ∀ typ b, update bodies (s.sessions u).down.codec (some body) typ = some b →
          ∃ c, Codec.get typ = some c ∧ marshal c msg = b := by
      intro body hbody typ b hb
      rcases of_update (P := fun o => o = some b) hb with ⟨htyp, hb⟩ | ⟨-, hb⟩
      · cases hb
        rw [htyp]
        exact exists_of_bodyFor hbodies hbody
      · exact hbodies typ b hb
    simp only at hstep
    split at hstep
    · cases hstep
    next hbody =>
      cases hstep
      exact h.setCaller ⟨hmem, hkept none hbody⟩
    next body hbody =>
      obtain ⟨c, hc, hm⟩ := exists_of_bodyFor hbodies hbody
      exact h.startPush hstep ⟨c, hc, msg, hmem, hm⟩ ⟨hmem, hkept (some body) hbody⟩
  · cases hstep

/-- **One step.** -/
theorem Labelled.step (h : s.Labelled marshal) {a : FanAct ι Msg n} (hsteady : s.steady a = true)
    (hstep : s.step marshal writeCap a = some s') : s'.Labelled marshal := by
  cases a with
  | push g _ msgID msg | broadcast g _ msgID msg =>
    simp only [FanOut.step] at hstep
    split at hstep <;> cases hstep
    · exact Labelled.setCaller (h.record (msgID, msg)) (by simp [CallerOk])
  | encode g => exact h.encodeStep hstep
  | returned g => exact h.returnedStep hstep
  | session u a =>
    obtain ⟨hallowed, hstep⟩ := ite_none_right_eq_some.mp hstep
    obtain ⟨d, hd, rfl⟩ := map_eq_some_iff.mp hstep
    refine h.setSession ((h.sessions u).step ?_ ?_ ?_ hd)
    · rintro _ _ _ _ rfl
      cases hallowed
    · rintro _ _ _ _ rfl
      exact hallowed
    · rintro c rfl
      exact hsteady

/-- **Flags name the codec of the body**, if no reconnect changes the codec while a push is between
its two reads: in the ring, the snapshot cache and every frame handed over. -/
theorem labelled_of_run {codec : ι → Codec} {replayCap : ℕ} {hcap : 0 < replayCap}
    {as : List (FanAct ι Msg n)}
    (hrun : run (step marshal writeCap) (newFanOut Msg n codec replayCap hcap) as = some s)
    (halong : Along (step marshal writeCap) (fun s a => s.steady a = true)
      (newFanOut Msg n codec replayCap hcap) as) (u : ι) :
    (∀ f ∈ (s.sessions u).down.ring.toList, Session.Labelled (Encodes marshal s.pushed) f) ∧
      (∀ f ∈ (s.sessions u).down.snaps, Session.Labelled (Encodes marshal s.pushed) f) ∧
      ∀ a f, (s.sessions u).sends a = some f → Session.Labelled (Encodes marshal s.pushed) f := by
  have h : s.Labelled marshal :=
    invariant_of_run (I := FanOut.Labelled marshal) (fun _ _ _ h hs hstep => h.step hs hstep)
      (labelled_new codec replayCap hcap) halong hrun
  exact ⟨(h.sessions u).ring, (h.sessions u).snaps, fun a f hf => (h.sessions u).sends hf⟩

/-- `StageNtf` of `games/doudizhu/messages.go`. -/
def stageNtf (_ : Unit) : MessageType where
  fields := [⟨"Stage", "stage", "varint,1,opt,name=stage,proto3", .int .native⟩]
  ascii_key := ascii_of_all (by decide)
  nodup := by decide

def marshalStage (c : Codec) (stage : ℤ) : Option Bytes :=
  (c.marshal stageNtf () [.int stage]).toOption

/-- A player who logged in with JSON comes back with protobuf. -/
def reconnectActs : List (FanAct Unit ℤ 1) :=
  [.session () (.reconnect 1 0 0 Codec.protobuf.type), .session () (.bind 1),
    .session () (.goOnline 1)]

/-- The stage is broadcast to the player and lands in the ring. -/
def bufferActs : List (FanAct Unit ℤ 1) := [.session () (.readCodec 0), .session () (.buffer 0)]

def onePlayer : FanOut Unit ℤ 1 := newFanOut ℤ 1 (fun _ => .json) 8 (by decide)

theorem labelled_of_run_reconnected : ∃ s, run (step marshalStage 4) onePlayer
      ([FanAct.session () (.respond 0 true)] ++ reconnectActs ++
        [FanAct.broadcast 0 [()] 0x1311 1 false, .encode 0] ++ bufferActs) = some s ∧
      (s.sessions ()).down.ring.toList = [downFrame 1 1 0x1311 [8, 1]] ∧
      ∀ f ∈ (s.sessions ()).down.ring.toList,
        Session.Labelled (Encodes marshalStage s.pushed) f :=
  exists_of_run_and (by decide +kernel) fun _ hrun _ =>
    (labelled_of_run hrun (by decide +kernel) ()).1

/-- The player comes back between the reads: the ring holds a frame with flag protobuf and body
JSON. -/
theorem reconnect_mislabels : ∃ s f, run (step marshalStage 4) onePlayer
      ([.session () (.respond 0 true), .broadcast 0 [()] 0x1311 1 false, .encode 0] ++
        reconnectActs ++ bufferActs) = some s ∧
      (s.sessions ()).down.ring.toList = [f] ∧ codecOf f = some .protobuf ∧
      marshalStage .json 1 = some f.body ∧
      ¬ Session.Labelled (Encodes marshalStage s.pushed) f := by
  obtain ⟨s, hrun, hring, hpushed⟩ := exists_of_run (step marshalStage 4) onePlayer
    ([.session () (.respond 0 true), .broadcast 0 [()] 0x1311 1 false, .encode 0] ++
      reconnectActs ++ bufferActs)
    (fun s => (s.sessions ()).down.ring.toList =
      [downFrame 1 1 0x1311 (ascii "\x7b\"stage\":1\x7d")] ∧ s.pushed = [(0x1311, 1)])
    (by decide +kernel)
  refine ⟨s, _, hrun, hring, by decide, by decide +kernel, ?_⟩
  rintro ⟨c, hc, msg, hmem, hbody⟩
  obtain rfl : Codec.protobuf = c := some.inj hc
  rw [hpushed, mem_singleton] at hmem
  obtain rfl : msg = 1 := (Prod.mk.inj hmem).2
  have hprotobuf : marshalStage .protobuf 1 = some [8, 1] := by decide +kernel
  rw [hprotobuf] at hbody
  exact absurd (some.inj hbody) (by decide)

end FanOut

end RanGame.Session
