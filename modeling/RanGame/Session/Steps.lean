import RanGame.Session.Delivery

/-!
# What a step can do to the order of frames

Most actions only move a push, a goroutine or a write channel along (`Delivery.Calm`). Ten kinds of
step matter for the order of reliable frames (`Delivery.Notable`). Every action is one or the other
(`calm_or_notable`).
-/

namespace RanGame.Session

open Function Machine Option Delivery Transport

/-- The number of a reliable push that has not read the bound connection yet. -/
def Pusher.undecided : Pusher → Option UInt32
  | .checking f false | .routing f false => some f.seq
  | _ => none

/-- The number of a reliable push that is about to be handed over, and the connection. -/
def Pusher.decided : Pusher → Option (UInt32 × ConnID)
  | .pushing f false c => some (f.seq, c)
  | _ => none

/-- Bound, and the frames to replay not yet read. -/
def Handler.early : Handler → Bool
  | .onlining _ _ _ | .closingOld _ _ | .replaying _ => true
  | _ => false

def Handler.frames : Handler → List Frame
  | .snapping frames | .responding frames _ | .writing frames _ => frames
  | _ => []

/-- Does the connection still wait for replayed frames? -/
def Handler.busy (h : Handler) : Bool := h.early || !h.frames.isEmpty

def Handler.isBinding : Handler → Bool
  | .binding _ _ => true
  | _ => false

/-- Not yet bound, or gone without having been. -/
def Handler.outside : Handler → Bool
  | .reading | .binding _ _ | .done => true
  | _ => false

/-- Does its goroutine have the current token without having told it to anybody? -/
def Conn.secret (k : Conn) : Bool :=
  match k.handler with
  | .reading => k.wasBound
  | .snapping _ | .responding _ _ => true
  | h => h.isBinding || h.early

/-- The numbers a connection has been handed and those it still waits for. -/
def Conn.due (k : Conn) : List UInt32 := k.handed ++ k.handler.frames.map Frame.seq

/-- A change of a connection that the order of frames does not depend on. -/
structure Conn.Calm (k k' : Conn) : Prop where
  handed_eq : k'.handed = k.handed
  frames_eq : k'.handler.frames = k.handler.frames
  early_eq : k'.handler.early = k.handler.early
  wasBound_eq : k'.wasBound = k.wasBound
  closed : k.closed = true → k'.closed = true
  secret : k'.secret = true → k.secret = true
  binding : k'.handler.isBinding = true → k.handler.isBinding = true
  outside : k.handler.outside = true → k'.handler.outside = true

theorem Conn.Calm.refl (k : Conn) : k.Calm k := ⟨rfl, rfl, rfl, rfl, id, id, id, id⟩

theorem Conn.Calm.close (k : Conn) : k.Calm { k with closed := true } :=
  ⟨rfl, rfl, rfl, rfl, fun _ => rfl, id, id, id⟩

variable {k : Conn}

theorem Conn.Calm.setHandler {h : Handler} (hframes : h.frames = k.handler.frames)
    (hearly : h.early = k.handler.early)
    (hsecret : ({ k with handler := h } : Conn).secret = true → k.secret = true)
    (hbinding : h.isBinding = true → k.handler.isBinding = true)
    (houtside : k.handler.outside = true → h.outside = true) : k.Calm { k with handler := h } :=
  ⟨rfl, hframes, hearly, rfl, id, hsecret, hbinding, houtside⟩

theorem Conn.Calm.move {h₀ h : Handler} (hc : k.handler = h₀) (hframes : h.frames = h₀.frames)
    (hearly : h.early = h₀.early)
    (hsecret : ({ k with handler := h } : Conn).secret = true →
      ({ k with handler := h₀ } : Conn).secret = true)
    (hbinding : h.isBinding = true → h₀.isBinding = true)
    (houtside : h₀.outside = true → h.outside = true) : k.Calm { k with handler := h } := by
  subst hc
  exact .setHandler hframes hearly hsecret hbinding houtside

theorem Conn.Calm.trans {k' k'' : Conn} (h : k.Calm k') (h' : k'.Calm k'') : k.Calm k'' :=
  ⟨h'.handed_eq.trans h.handed_eq, h'.frames_eq.trans h.frames_eq, h'.early_eq.trans h.early_eq,
    h'.wasBound_eq.trans h.wasBound_eq, h'.closed ∘ h.closed, h.secret ∘ h'.secret,
    h.binding ∘ h'.binding, h'.outside ∘ h.outside⟩

@[simp] theorem Conn.handler_hand (k : Conn) (seqs : List UInt32) (accepted : Bool) :
    (k.hand seqs accepted).handler = k.handler := by
  cases accepted <;> rfl

theorem Conn.Calm.hand (k : Conn) (accepted : Bool) : k.Calm (k.hand [] accepted) := by
  cases accepted with
  | true => exact ⟨List.append_nil _, rfl, rfl, rfl, id, id, id, id⟩
  | false => exact .refl k

/-- The push that an action belongs to. -/
def DeliveryAct.pusher {n : ℕ} : DeliveryAct n → Option (Fin n)
  | .push i _ _ _ | .readCodec i | .buffer i | .checkState i | .readConn i | .deliver i _ => some i
  | _ => none

def DeliveryAct.binds {n : ℕ} : DeliveryAct n → Bool
  | .bind _ => true
  | _ => false

/-- The actions that only move a push, a goroutine or a connection's channel along. -/
def DeliveryAct.calm {n : ℕ} : DeliveryAct n → Bool
  | .push _ _ _ _ | .readCodec _ | .checkState _ | .readConn _ | .closeOld _ | .readSnaps _
  | .startPump _ | .hangUp _ | .goOffline _ | .closeSelf _ | .flush _ | .other _ | .drop _
  | .release => true
  | _ => false

namespace Delivery

variable {n writeCap : ℕ} {s s' : Delivery n}

/-- The numbered push `q` of pusher `i` is on its way to connection `c`. -/
def Aimed (s : Delivery n) (i : Fin n) (q : UInt32) (c : ConnID) : Prop :=
  ((s.pushers i).undecided = some q ∧ s.bound = some c) ∨ (s.pushers i).decided = some (q, c)

/-- A step that the order of frames does not depend on. -/
structure Calm (s s' : Delivery n) : Prop where
  conns : ∀ c, (s.conns c).Calm (s'.conns c)
  undecided : ∀ i q, (s'.pushers i).undecided = some q → (s.pushers i).undecided = some q
  decided : ∀ i q c, (s'.pushers i).decided = some (q, c) → s.Aimed i q c
  bound : s'.bound = s.bound ∨
    s'.bound = none ∧ ∀ c, s.bound = some c → (s.conns c).handler.early = false
  token_eq : s'.token = s.token
  known_eq : s'.known = s.known
  ring_eq : s'.down.ring = s.down.ring
  nextSeq_eq : s'.down.nextSeq = s.down.nextSeq
  st : s'.st = .stateOnline → s.st = .stateOnline

variable {c : ConnID} {i : Fin n} {a : DeliveryAct n} {q : UInt32}

theorem calm_conns {k : Conn} (hk : (s.conns c).Calm k) (d : ConnID) :
    (s.conns d).Calm (update s.conns c k d) := by
  by_cases hd : d = c
  · subst hd
    rwa [update_self]
  · rw [update_of_ne hd]
    exact .refl _

theorem Calm.setConn {k : Conn} (hk : (s.conns c).Calm k) : s.Calm (s.setConn c k) :=
  ⟨calm_conns hk, fun _ _ => id, fun _ _ _ => .inr, .inl rfl, rfl, rfl, rfl, rfl, id⟩

theorem Calm.setPusher {p : Pusher}
    (hun : ∀ q, p.undecided = some q → (s.pushers i).undecided = some q)
    (hdec : ∀ q c, p.decided = some (q, c) → s.Aimed i q c) : s.Calm (s.setPusher i p) := by
  refine ⟨fun c => .refl _, fun j q hj => ?_, fun j q c hj => ?_, .inl rfl, rfl, rfl, rfl, rfl, id⟩
  · rcases of_update (P := (Pusher.undecided · = some q)) hj with ⟨hji, hj⟩ | ⟨-, hj⟩
    · exact hji ▸ hun q hj
    · exact hj
  · rcases of_update (P := (Pusher.decided · = some (q, c))) hj with ⟨hji, hj⟩ | ⟨-, hj⟩
    · exact hji ▸ hdec q c hj
    · exact .inr hj

/-- What a push does by itself, branch by branch. -/
inductive Pushes (writeCap : ℕ) (s : Delivery n) : DeliveryAct n → Delivery n → Prop
  | push {i msgID body snapshot} (hi : s.pushers i = .idle) :
    Pushes writeCap s (.push i msgID body snapshot) (s.setPusher i (.encoding msgID body snapshot))
  | readCodec {i msgID body snapshot} (hi : s.pushers i = .encoding msgID body snapshot) :
    Pushes writeCap s (.readCodec i) (s.setPusher i (.buffering
        (if snapshot then s.down.codec ||| flagSnapshot else s.down.codec) msgID body snapshot))
  | snap {i flag msgID body} (hi : s.pushers i = .buffering flag msgID body true) :
    Pushes writeCap s (.buffer i)
      { s.setPusher i (.checking (downFrame flag 0 msgID body) true) with
        down := { s.down with snaps := s.down.snaps.put (downFrame flag 0 msgID body) } }
  | number {i flag msgID body} (hi : s.pushers i = .buffering flag msgID body false) :
    Pushes writeCap s (.buffer i)
      { s.setPusher i (.checking (downFrame flag (s.down.nextSeq + 1) msgID body) false) with
        down := s.down.number flag msgID body }
  | checkState {i f snapshot} (hi : s.pushers i = .checking f snapshot) :
    Pushes writeCap s (.checkState i)
      (s.setPusher i (if s.st = .stateOnline then .routing f snapshot else .idle))
  | routed {i f snapshot c} (hi : s.pushers i = .routing f snapshot) (hbound : s.bound = some c) :
    Pushes writeCap s (.readConn i) (s.setPusher i (.pushing f snapshot c))
  | unrouted {i f snapshot} (hi : s.pushers i = .routing f snapshot)
    (hbound : s.bound = none) : Pushes writeCap s (.readConn i) (s.setPusher i .idle)
  | deliver {i f snapshot accepted c} (hi : s.pushers i = .pushing f snapshot c)
    (hcan : (s.conns c).canAnswer writeCap (encodable f) accepted = true) :
    Pushes writeCap s (.deliver i accepted)
      ((s.setConn c ((s.conns c).hand (if snapshot then [] else [f.seq]) accepted)).setPusher i
        .idle)

theorem pushes_of_step (ha : a.pusher ≠ none) (h : s.step writeCap a = some s') :
    s.Pushes writeCap a s' := by
  cases a with
  | push | readCodec | checkState =>
    simp only [step] at h
    split at h <;> cases h
    next hi =>
      constructor
      exact hi
  | buffer i =>
    simp only [step, bufferStep] at h
    split at h <;> cases h
    next hi => exact .snap hi
    next hi => exact .number hi
  | readConn i =>
    simp only [step] at h
    split at h <;> cases h
    next hi =>
      split
      next hbound => exact .routed hi hbound
      next hbound => exact .unrouted hi hbound
  | deliver i accepted =>
    simp only [step, deliverStep] at h
    split at h
    next hi =>
      split at h <;> cases h
      next hcan => exact .deliver hi hcan
    · cases h
  | _ => exact absurd rfl ha

theorem Calm.setPusher_unnumbered {p : Pusher} (hun : p.undecided = none)
    (hdec : p.decided = none) : s.Calm (s.setPusher i p) := by
  refine .setPusher (fun q hq => ?_) (fun q c hq => ?_)
  · cases hun.symm.trans hq
  · cases hdec.symm.trans hq

theorem calm_of_step (ha : a.calm = true) (h : s.step writeCap a = some s') : s.Calm s' := by
  cases a with
  | push | readCodec =>
    cases pushes_of_step (by simp [DeliveryAct.pusher]) h
    exact .setPusher_unnumbered rfl rfl
  | checkState i =>
    cases pushes_of_step (by simp [DeliveryAct.pusher]) h with
    | @checkState _ f snapshot hi =>
      split
      · refine .setPusher (fun q hq => ?_) (by simp [Pusher.decided])
        cases snapshot with
        | true => cases hq
        | false => simpa [hi, Pusher.undecided] using hq
      · exact .setPusher_unnumbered rfl rfl
  | readConn i =>
    cases pushes_of_step (by simp [DeliveryAct.pusher]) h with
    | @routed _ f snapshot c hi hbound =>
      refine .setPusher (by simp [Pusher.undecided]) (fun q d hq => ?_)
      cases snapshot with
      | true => cases hq
      | false =>
        obtain ⟨rfl, rfl⟩ := Prod.mk.inj (some.inj hq)
        exact .inl ⟨by simp [hi, Pusher.undecided], hbound⟩
    | unrouted => exact .setPusher_unnumbered rfl rfl
  | closeOld c =>
    simp only [step] at h
    split at h
    next old lastSeq hc =>
      have hmove : (s.conns c).Calm { s.conns c with handler := .replaying lastSeq } :=
        .move hc rfl rfl id id id
      split at h <;> cases h
      · exact .setConn hmove
      next d =>
        split
        · exact .setConn hmove
        next hdc =>
          -- closing `d` first does not touch the goroutine of `c`
          refine ⟨fun e => ?_, fun _ _ => id, fun _ _ _ => .inr, .inl rfl, rfl, rfl, rfl, rfl, id⟩
          refine (calm_conns (Conn.Calm.close (s.conns d)) e).trans ?_
          refine calm_conns (s := s.close d) ?_ e
          simpa [close, setConn, update_of_ne (Ne.symm hdc)] using hmove
    · cases h
  | readSnaps | startPump =>
    simp only [step] at h
    split at h <;> cases h
    next hc => exact .setConn (.move hc rfl rfl id id id)
  | hangUp c =>
    simp only [step, hangUpStep] at h
    split at h
    next hc =>
      split at h <;> cases h
      next hbound =>
        refine ⟨calm_conns (.move hc rfl rfl id id id), fun _ _ => id, fun _ _ _ => .inr,
          .inr ⟨rfl, ?_⟩, rfl, rfl, rfl, rfl, id⟩
        intro d hd
        obtain rfl : c = d := some.inj (hbound.symm.trans hd)
        simp [hc, Handler.early]
      · exact .setConn (.move hc rfl rfl id id fun _ => rfl)
    next hc =>
      cases h
      have hmove : (s.conns c).Calm { s.conns c with handler := .done } :=
        .move hc rfl rfl (fun hsecret => by cases hsecret) id fun _ => rfl
      exact .setConn (hmove.trans (.close _))
    · cases h
  | goOffline c =>
    simp only [step] at h
    split at h <;> cases h
    next hc =>
      refine ⟨calm_conns (.move hc rfl rfl id id id), fun _ _ => id, fun _ _ _ => .inr, .inl rfl,
        rfl, rfl, rfl, rfl, ?_⟩
      intro hst
      split at hst
      · cases hst
      · exact hst
  | closeSelf c =>
    simp only [step] at h
    split at h <;> cases h
    next hc =>
      have hmove : (s.conns c).Calm { s.conns c with handler := .done } :=
        .move hc rfl rfl id id fun _ => rfl
      exact .setConn (hmove.trans (.close _))
  | flush c =>
    cases h
    exact .setConn ⟨rfl, rfl, rfl, rfl, id, id, id, id⟩
  | other c =>
    simp only [step] at h
    split at h <;> cases h
    · exact .setConn ⟨List.append_nil _, rfl, rfl, rfl, id, id, id, id⟩
  | drop c =>
    cases h
    exact .setConn (.close _)
  | release =>
    cases h
    exact ⟨fun c => .refl _, fun _ _ => id, fun _ _ _ => .inr, .inl rfl, rfl, rfl, rfl, rfl,
      fun hst => by cases hst⟩
  | _ => cases ha

theorem pushers_of_step (ha : a.pusher = none) (h : s.step writeCap a = some s') :
    s'.pushers = s.pushers := by
  cases a with
  | push | readCodec | buffer | checkState | readConn | deliver => cases ha
  | _ =>
    simp only [step, writeStep, respondStep, hangUpStep, setHandler, setConn,
      close] at h
    grind

theorem Calm.aimed (hc : s.Calm s') (h : s'.Aimed i q c) : s.Aimed i q c := by
  rcases h with ⟨hun, hbound⟩ | hdec
  · refine .inl ⟨hc.undecided i q hun, ?_⟩
    rcases hc.bound with heq | ⟨hnone, -⟩
    · rwa [← heq]
    · rw [hnone] at hbound
      cases hbound
  · exact hc.decided i q c hdec

theorem Calm.refl (s : Delivery n) : s.Calm s :=
  ⟨fun _ => .refl _, fun _ _ => id, fun _ _ _ => .inr, .inl rfl, rfl, rfl, rfl, rfl, id⟩

theorem Calm.setPusher_idle (hc : s.Calm s') (i : Fin n) : s.Calm (s'.setPusher i .idle) := by
  refine ⟨hc.conns, fun j q hj => ?_, fun j q c hj => ?_, hc.bound, hc.token_eq, hc.known_eq,
    hc.ring_eq, hc.nextSeq_eq, hc.st⟩
  · rcases of_update (P := (Pusher.undecided · = some q)) hj with ⟨-, hj⟩ | ⟨-, hj⟩
    · cases hj
    · exact hc.undecided j q hj
  · rcases of_update (P := (Pusher.decided · = some (q, c))) hj with ⟨-, hj⟩ | ⟨-, hj⟩
    · cases hj
    · exact hc.decided j q c hj

/-- The steps that the order of frames does depend on. -/
inductive Notable (writeCap : ℕ) (s : Delivery n) : DeliveryAct n → Delivery n → Prop
  | number (i : Fin n) (flag : UInt8) (msgID : UInt32) (body : Bytes)
      (hi : s.pushers i = .buffering flag msgID body false) : Notable writeCap s (.buffer i)
      { s.setPusher i (.checking (downFrame flag (s.down.nextSeq + 1) msgID body) false) with
        down := s.down.number flag msgID body }
  | hand (i : Fin n) (f : Frame) (c : ConnID) (hi : s.pushers i = .pushing f false c) :
      Notable writeCap s (.deliver i true)
      ((s.setConn c ((s.conns c).hand [f.seq] true)).setPusher i .idle)
  | rotate (c : ConnID) (lastSeq : UInt32) (codec : UInt8) (hc : (s.conns c).handler = .reading)
      (hk : s.token ∈ s.known) : Notable writeCap s (.reconnect c s.token lastSeq codec)
      { s.setHandler c (.binding lastSeq codec) with token := s.token + 1 }
  | bind (c : ConnID) (lastSeq : UInt32) (codec : UInt8)
      (hc : (s.conns c).handler = .binding lastSeq codec) : Notable writeCap s (.bind c)
      { s.setConn c { s.conns c with
          handler := .onlining s.bound lastSeq codec, wasBound := true } with
        bound := some c }
  | online (c : ConnID) (old : Option ConnID) (lastSeq : UInt32) (codec : UInt8)
      (hc : (s.conns c).handler = .onlining old lastSeq codec) : Notable writeCap s (.goOnline c)
      { s.setHandler c (.closingOld old lastSeq) with
        st := .stateOnline, down := { s.down with codec := codec } }
  | readRing (c : ConnID) (lastSeq : UInt32) (hc : (s.conns c).handler = .replaying lastSeq) :
      Notable writeCap s (.readRing c) (s.setHandler c (.snapping (since s.down.ring lastSeq).1))
  | told (c : ConnID) (frames snaps : List Frame)
      (hc : (s.conns c).handler = .responding frames snaps) : Notable writeCap s (.respond c true)
      { s.setConn c { (s.conns c).hand [] true with handler := .writing frames snaps } with
        known := s.token :: s.known }
  | untold (c : ConnID) (frames snaps : List Frame)
      (hc : (s.conns c).handler = .responding frames snaps) :
      Notable writeCap s (.respond c false) (s.setHandler c .reading)
  | written (c : ConnID) (f : Frame) (frames snaps : List Frame)
      (hc : (s.conns c).handler = .writing (f :: frames) snaps) : Notable writeCap s (.write c true)
      (s.setConn c { (s.conns c).hand [f.seq] true with handler := .writing frames snaps })
  | refused (c : ConnID) (f : Frame) (frames snaps : List Frame)
      (hc : (s.conns c).handler = .writing (f :: frames) snaps)
      (hr : (s.conns c).canAnswer writeCap (encodable f) false = true) :
      Notable writeCap s (.write c false) (s.setHandler c (.writing [] snaps))

/-- **What a step can do to the order of frames.** -/
theorem calm_or_notable (h : s.step writeCap a = some s') :
    s.Calm s' ∨ s.Notable writeCap a s' := by
  by_cases ha : a.calm = true
  · exact .inl (calm_of_step ha h)
  cases a with
  | buffer i =>
    cases pushes_of_step (by simp [DeliveryAct.pusher]) h with
    | @snap _ flag msgID body hi =>
      have hc : s.Calm (s.setPusher i (.checking (downFrame flag 0 msgID body) true)) :=
        .setPusher_unnumbered rfl rfl
      exact .inl ⟨hc.conns, hc.undecided, hc.decided, hc.bound, rfl, rfl, rfl, rfl, id⟩
    | number hi => exact .inr (.number i _ _ _ hi)
  | deliver i accepted =>
    cases pushes_of_step (by simp [DeliveryAct.pusher]) h with
    | @deliver _ f snapshot _ c hi hcan =>
      cases snapshot with
      | true => exact .inl (.setPusher_idle (.setConn (.hand _ accepted)) i)
      | false =>
        cases accepted with
        | true => exact .inr (.hand i f c hi)
        | false => exact .inl (.setPusher_idle (.setConn (.refl _)) i)
  | reconnect c token lastSeq codec =>
    simp only [step] at h
    split at h
    next hc =>
      split at h <;> cases h
      next heq =>
        subst heq
        exact .inr (.rotate c lastSeq codec hc.1 hc.2)
      · exact .inl (.refl s)
    · cases h
  | bind | goOnline | readRing =>
    simp only [step] at h
    split at h <;> cases h
    next hc =>
      right
      constructor
      exact hc
  | respond c accepted =>
    simp only [step, respondStep] at h
    split at h
    next frames snaps hc =>
      split at h <;> cases h
      · cases accepted with
        | true => exact .inr (.told c frames snaps hc)
        | false => exact .inr (.untold c frames snaps hc)
    · cases h
  | write c accepted =>
    simp only [step, writeStep] at h
    split at h
    next f frames snaps hc =>
      split at h <;> cases h
      next hr =>
        cases accepted with
        | true => exact .inr (.written c f frames snaps hc)
        | false => exact .inr (.refused c f frames snaps hc hr)
    next f snaps hc =>
      split at h <;> cases h
      · have hhand : ((s.conns c).hand [] accepted).handler = .writing [] (f :: snaps) := by
          rw [Conn.handler_hand, hc]
        exact .inl (.setConn ((Conn.Calm.hand _ accepted).trans (.move hhand rfl rfl id id id)))
    · cases h
  | _ => exact absurd rfl ha

theorem aimed_of_number {j : Fin n} {f : Frame} {d : Downlink}
    (h : ({ s.setPusher i (.checking f false) with down := d } : Delivery n).Aimed j q c) :
    (j = i ∧ q = f.seq ∧ s.bound = some c) ∨ (j ≠ i ∧ s.Aimed j q c) := by
  rcases of_update (P := fun p : Pusher => p.undecided = some q ∧
    s.bound = some c ∨ p.decided = some (q, c)) h with ⟨hji, ⟨hun, hbound⟩ | hdec⟩ | h
  · exact .inl ⟨hji, (some.inj hun).symm, hbound⟩
  · cases hdec
  · exact .inr h

theorem aimed_of_idle {j : Fin n} (h : (s.setPusher i .idle).Aimed j q c) :
    j ≠ i ∧ s.Aimed j q c := by
  rcases of_update (P := fun p : Pusher => p.undecided = some q ∧
    s.bound = some c ∨ p.decided = some (q, c)) h with ⟨-, ⟨hun, -⟩ | hdec⟩ | h
  · cases hun
  · cases hdec
  · exact h

end Delivery

end RanGame.Session
