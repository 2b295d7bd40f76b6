import RanGame.App.ServeConn

/-!
# Requests that a Logic node refuses

`handleLogin` and `handleReconnect` of `internal/app/logic_handler.go`, for any number of requests
at a time, over the session manager. Errors after the call of the manager come too late: `Create`
has destroyed the old session, `Reconnect` has rotated the token.

Request `i` makes call `i` of the manager. Whether the route table and the encoder fail is an input.
-/

namespace RanGame

open Function Machine Option

namespace Session

variable {n : ℕ} {C : Type*}

def ManagerAct.call : ManagerAct n C → Option (Fin n)
  | .tick _ => none
  | .create i .. | .unindex i | .reconnect i .. | .rotate i _ | .bind i | .goOnline i
  | .clearOffline i | .reindex i | .closeOld i | .markOfflineConn i .. | .goOffline i | .dropConn i
  | .closeConn i | .sweep i | .examine i | .remove i _ | .takeConn i | .release i | .close i
  | .notify i => some i

/-- A call of `Reconnect` that has not got further than the lookup of the token. -/
def Call.lookedUp : Call n C → Bool
  | .notStarted | .rotating .. | .refused _ => true
  | _ => false

/-- Sessions, indexes and connections are the same. -/
structure Untouched (m m' : Manager n C) : Prop where
  sess : m'.sess = m.sess
  byUID : m'.byUID = m.byUID
  byConn : m'.byConn = m.byConn
  byToken : m'.byToken = m.byToken
  closed : m'.closed = m.closed

theorem Untouched.refl (m : Manager n C) : Untouched m m := ⟨rfl, rfl, rfl, rfl, rfl⟩

theorem Untouched.trans {m m' m'' : Manager n C} (h : Untouched m m') (h' : Untouched m' m'') :
    Untouched m m'' where
  sess := h'.sess.trans h.sess
  byUID := h'.byUID.trans h.byUID
  byConn := h'.byConn.trans h.byConn
  byToken := h'.byToken.trans h.byToken
  closed := h'.closed.trans h.closed

namespace Manager

variable [DecidableEq C] {ID : C → UInt64} {cfg : Config} {m m' : Manager n C}
  {a : ManagerAct n C} {i : Fin n}

theorem calls_of_call_ne (hstep : m.step ID cfg a = some m') (ha : a.call ≠ some i) :
    m'.calls i = m.calls i := by
  have hne : ∀ {j : Fin n} (k : Call n C), some j ≠ some i → update m.calls j k i =
      m.calls i := fun k hj => update_of_ne (fun h => hj (congrArg some h.symm)) ..
  cases Manager.happens_of_step hstep with
  | tick => rfl
  | _ => exact hne _ ha

theorem lookedUp_of_step (hstep : m.step ID cfg a = some m') (ha : a.call = some i)
    (hi : (m'.calls i).lookedUp = true) : (m.calls i).lookedUp = true ∧ Untouched m m' := by
  cases Manager.happens_of_step hstep with
  | tick => cases ha
  | find hj | miss hj | stale hj =>
    cases ha
    rw [hj]
    exact ⟨rfl, rfl, rfl, rfl, rfl, rfl⟩
  | @notify j x why hj =>
    cases ha
    cases why <;> simp [Cause.next, Call.lookedUp] at hi
  | _ =>
    cases ha
    simp [Call.lookedUp] at hi

end Manager

end Session

namespace App

open Session Protocol
open Transport (Frame)
open Extraction (decodeLoginReq decodeReconnectReq)

/-- What `sendError` is called with. -/
inductive LogicError
  /-- `ErrDecode`: `codec not supported` -/
  | codecNotSupported
  /-- `ErrDecode`, with the text of the codec's error -/
  | decode
  /-- `ErrDecode`: `uid required` -/
  | uidRequired
  /-- `ErrTokenInvalid` -/
  | tokenInvalid
  /-- `ErrInternal`: `route bind failed` -/
  | routeBindFailed
  /-- `ErrInternal`, with the text of the encoder's error -/
  | encode
  deriving DecidableEq, Repr

inductive Handling
  | idle
  | creating
  | reconnecting
  | routing
  | encoding
  | answered (e : Option LogicError)
  deriving DecidableEq

def Handling.calling : Handling → Bool
  | .creating | .reconnecting => true
  | _ => false

/-- The session manager of a node and the requests that are being handled. -/
structure NodeHandler (n : ℕ) (C : Type) where
  sessions : Manager n C
  handling : Fin n → Handling

inductive HandlerAct (n : ℕ) (C : Type)
  /-- A frame arrives over `c`; `token` is the first token of a new session. -/
  | handle (i : Fin n) (f : Frame) (c : C) (token : String)
  | proceed (i : Fin n) (a : ManagerAct n C)
  | called (i : Fin n)
  | routeBind (i : Fin n) (ok : Bool)
  | encode (i : Fin n) (ok : Bool)
  | other (a : ManagerAct n C)

def HandlerAct.request {n : ℕ} {C : Type} : HandlerAct n C → Option (Fin n)
  | .handle i .. | .proceed i _ | .called i | .routeBind i _ | .encode i _ => some i
  | .other _ => none

namespace NodeHandler

section handlers

/-- `handleLogin`, up to `Create`: the uid, and the codec of the request. -/
def handleLogin (f : Frame) : Except LogicError (Bytes × Codec) :=
  match codecOf f with
  | none => .error .codecNotSupported
  | some c =>
    match decodeLoginReq f with
    | none => .error .decode
    | some uid => if uid = [] then .error .uidRequired else .ok (uid, c)

/-- `handleReconnect`, up to `Reconnect`: the token, and the codec. -/
def handleReconnect (nodeID : Bytes) (f : Frame) : Except LogicError (Bytes × Codec) :=
  match codecOf f with
  | none => .error .codecNotSupported
  | some c =>
    match decodeReconnectReq f with
    | none => .error .decode
    | some token => .ok (Extraction.stripNodeIDPrefix token nodeID, c)

variable {n : ℕ} {C : Type} (s : NodeHandler n C)

@[simps] def setHandling (i : Fin n) (k : Handling) : NodeHandler n C :=
  { s with handling := update s.handling i k }

def sendError (i : Fin n) (e : LogicError) : NodeHandler n C := s.setHandling i (.answered (some e))

/-- What may happen besides the requests, which alone call `Create` and `Reconnect`. -/
def mayRun (a : ManagerAct n C) : Bool :=
  match a with
  | .create .. | .reconnect .. => false
  | _ => a.call.all fun i => !(s.handling i).calling

variable [DecidableEq C] (ID : C → UInt64) (cfg : Config) (nodeID : Bytes)

def manage (a : ManagerAct n C) : Option (NodeHandler n C) :=
  (s.sessions.step ID cfg a).map fun m => { s with sessions := m }

/-- `handle`, up to the first section of `Create` or `Reconnect`. -/
def handle (i : Fin n) (f : Frame) (c : C) (token : String) : Option (NodeHandler n C) :=
  match s.handling i with
  | .idle =>
    if f.msgID = msgLogin then
      match handleLogin f with
      | .error e => some (s.sendError i e)
      | .ok (uid, k) =>
        (s.setHandling i .creating).manage ID cfg (.create i (text uid) c k.type token)
    else if f.msgID = msgReconnect then
      match handleReconnect nodeID f with
      | .error e => some (s.sendError i e)
      | .ok (old, k) =>
        (s.setHandling i .reconnecting).manage ID cfg (.reconnect i (text old) c k.type)
    else none
  | _ => none

def called (i : Fin n) : Option (NodeHandler n C) :=
  match s.handling i, s.sessions.calls i with
  | .creating, .created | .reconnecting, .reconnected _ _ => some (s.setHandling i .routing)
  | .reconnecting, .refused _ => some (s.sendError i .tokenInvalid)
  | _, _ => none

end handlers

def step {n : ℕ} {C : Type} [DecidableEq C] (ID : C → UInt64) (cfg : Config) (nodeID : Bytes)
    (s : NodeHandler n C) : HandlerAct n C → Option (NodeHandler n C)
  | .handle i f c token => s.handle ID cfg nodeID i f c token
  | .proceed i a =>
    if (s.handling i).calling = true ∧ a.call = some i then s.manage ID cfg a else none
  | .called i => s.called i
  | .routeBind i ok =>
    match s.handling i with
    | .routing => some (if ok then s.setHandling i .encoding else s.sendError i .routeBindFailed)
    | _ => none
  | .encode i ok =>
    match s.handling i with
    | .encoding => some (if ok then s.setHandling i (.answered none) else s.sendError i .encode)
    | _ => none
  | .other a => if s.mayRun a then s.manage ID cfg a else none

end NodeHandler

def newNodeHandler (n : ℕ) (C : Type) (clock : ℤ) : NodeHandler n C where
  sessions := newManager n C clock
  handling _ := .idle

/-! ### The point of no return -/

namespace NodeHandler

variable {n : ℕ} {C : Type} {s s' : NodeHandler n C} {i : Fin n}

/-- The request has changed a session, and has not been answered with an error. -/
def Committed (s : NodeHandler n C) (i : Fin n) : Prop :=
  match s.handling i with
  | .creating | .routing | .encoding => True
  | .reconnecting => (s.sessions.calls i).lookedUp = false
  | .idle => False
  | .answered e => e = none

theorem Committed.ne_idle (h : s.Committed i) : s.handling i ≠ .idle := by
  intro hs
  rw [Committed, hs] at h
  exact h

theorem Committed.of_eq (h : s.Committed i) (hhandling : s'.handling i = s.handling i)
    (hcalls : s'.sessions.calls i = s.sessions.calls i) : s'.Committed i := by
  rw [Committed, hhandling, hcalls]
  exact h

theorem Committed.of_ne (h : s.Committed i) {j : Fin n} (hj : j ≠ i) (k : Handling) :
    (s.setHandling j k).Committed i :=
  h.of_eq (update_of_ne hj.symm ..) rfl

theorem committed_setHandling {k : Handling}
    (hk : k = .routing ∨ k = .encoding ∨ k = .answered none) :
    (s.setHandling i k).Committed i := by
  rw [Committed, setHandling_handling, update_self]
  rcases hk with rfl | rfl | rfl
  · trivial
  · trivial
  · rfl

theorem of_called (hstep : s.called i = some s') : s' = s.setHandling i .routing ∨
      s.handling i = .reconnecting ∧ (s.sessions.calls i).lookedUp = true ∧
        s' = s.sendError i .tokenInvalid := by
  rw [called] at hstep
  split at hstep
  · exact .inl (some.inj hstep).symm
  · exact .inl (some.inj hstep).symm
  next hs hi => exact .inr ⟨hs, by rw [hi]; rfl, (some.inj hstep).symm⟩
  · cases hstep

theorem Committed.called (h : s.Committed i) {j : Fin n} (hstep : s.called j = some s') :
    s'.Committed i := by
  by_cases hj : j = i
  · subst hj
    obtain rfl | ⟨hs, hlooked, -⟩ := of_called hstep
    · exact committed_setHandling (.inl rfl)
    · rw [Committed, hs] at h
      exact absurd (h.symm.trans hlooked) Bool.false_ne_true
  · obtain rfl | ⟨-, -, rfl⟩ := of_called hstep
    · exact h.of_ne hj _
    · exact h.of_ne hj _

variable [DecidableEq C] {ID : C → UInt64} {cfg : Config} {nodeID : Bytes}

theorem of_handle {f : Frame} {c : C} {token : String}
    (hstep : s.handle ID cfg nodeID i f c token = some s') :
    s.handling i = .idle ∧ ((∃ e, s' = s.sendError i e) ∨
        (∃ uid codec, (s.setHandling i .creating).manage ID cfg (.create i uid c codec token) =
          some s') ∨
        ∃ old codec, (s.setHandling i .reconnecting).manage ID cfg (.reconnect i old c codec) =
          some s') := by
  rw [handle] at hstep
  split at hstep
  next hs =>
    refine ⟨hs, ?_⟩
    split at hstep
    · split at hstep
      · exact .inl ⟨_, (some.inj hstep).symm⟩
      · exact .inr (.inl ⟨_, _, hstep⟩)
    · split at hstep
      · split at hstep
        · exact .inl ⟨_, (some.inj hstep).symm⟩
        · exact .inr (.inr ⟨_, _, hstep⟩)
      · cases hstep
  · cases hstep

theorem Committed.manage (h : s.Committed i) {a : ManagerAct n C}
    (hstep : s.manage ID cfg a = some s') : s'.Committed i := by
  obtain ⟨m, hm, rfl⟩ := map_eq_some_iff.mp hstep
  by_cases ha : a.call = some i
  · rw [Committed] at h ⊢
    simp only
    cases hs : s.handling i with
    | reconnecting =>
      rw [hs] at h
      refine Bool.eq_false_iff.mpr fun hi => ?_
      have hbefore := (Manager.lookedUp_of_step hm ha hi).1
      exact Bool.false_ne_true (h.symm.trans hbefore)
    | _ =>
      rw [hs] at h
      exact h
  · exact h.of_eq rfl (Manager.calls_of_call_ne hm ha)

theorem Committed.handle (h : s.Committed i) {j : Fin n} {f : Frame} {c : C} {token : String}
    (hstep : s.handle ID cfg nodeID j f c token = some s') : s'.Committed i := by
  obtain ⟨hidle, hnext⟩ := of_handle hstep
  have hj : j ≠ i := by
    rintro rfl
    exact h.ne_idle hidle
  rcases hnext with ⟨e, rfl⟩ | ⟨uid, codec, hm⟩ | ⟨old, codec, hm⟩
  · exact h.of_ne hj _
  · exact (h.of_ne hj _).manage hm
  · exact (h.of_ne hj _).manage hm

/-- **There is no way back**, but for the two late errors. -/
theorem Committed.step (h : s.Committed i) {a : HandlerAct n C}
    (ha : a ≠ .routeBind i false ∧ a ≠ .encode i false)
    (hstep : s.step ID cfg nodeID a = some s') : s'.Committed i := by
  cases a with
  | handle j f c token => exact h.handle hstep
  | called j => exact h.called hstep
  | routeBind j ok | encode j ok =>
    simp only [NodeHandler.step] at hstep
    split at hstep <;> cases hstep
    · by_cases hj : j = i
      · subst hj
        cases ok with
        | true => exact committed_setHandling (by simp)
        | false => simp at ha
      · cases ok with
        | true | false => exact h.of_ne hj _
  | proceed | other => exact h.manage (ite_none_right_eq_some.mp hstep).2

theorem untouched_of_manage {a : ManagerAct n C} (ha : a.call = some i)
    (hcalling : (s.handling i).calling = true) (hstep : s.manage ID cfg a = some s')
    (h : ¬ s'.Committed i) : Untouched s.sessions s'.sessions := by
  obtain ⟨m, hm, rfl⟩ := map_eq_some_iff.mp hstep
  rw [Committed] at h
  simp only at h
  cases hs : s.handling i with
  | creating =>
    rw [hs] at h
    exact absurd trivial h
  | reconnecting =>
    rw [hs] at h
    exact (Manager.lookedUp_of_step hm ha (Bool.eq_true_of_not_eq_false h)).2
  | idle | routing | encoding | answered =>
    rw [hs] at hcalling
    cases hcalling

/-- **Until then nothing changes**, in a step of a request. -/
theorem untouched_of_step {a : HandlerAct n C} (ha : a.request = some i)
    (hstep : s.step ID cfg nodeID a = some s') (h : ¬ s'.Committed i) :
    Untouched s.sessions s'.sessions := by
  cases a with
  | handle j f c token =>
    cases ha
    obtain ⟨-, ⟨e, rfl⟩ | ⟨uid, codec, hm⟩ | ⟨old, codec, hm⟩⟩ := of_handle hstep
    · exact .refl _
    · exact untouched_of_manage (s := s.setHandling i .creating) rfl (by simp [Handling.calling])
        hm h
    · exact untouched_of_manage (s := s.setHandling i .reconnecting) rfl
        (by simp [Handling.calling]) hm h
  | proceed j a =>
    cases ha
    obtain ⟨⟨hcalling, hcall⟩, hm⟩ := ite_none_right_eq_some.mp hstep
    exact untouched_of_manage hcall hcalling hm h
  | called j =>
    obtain rfl | ⟨-, -, rfl⟩ := of_called hstep
    · exact .refl _
    · exact .refl _
  | routeBind j ok | encode j ok =>
    simp only [NodeHandler.step] at hstep
    split at hstep <;> cases hstep
    · cases ok <;> exact .refl _
  | other a => cases ha

def loginFrame : Frame := Extraction.frameOf .json msgLogin Extraction.loginText

def reconnectFrame : Frame := Extraction.frameOf .json msgReconnect Extraction.reconnectText

def loginActs (token : String) : List (HandlerAct 2 UInt64) :=
  [.handle 0 loginFrame 1 token, .called 0, .routeBind 0 true, .encode 0 true]

abbrev nodeStep : NodeHandler 2 UInt64 → HandlerAct 2 UInt64 → Option (NodeHandler 2 UInt64) :=
  step id (Config.withDefaults 60) (ascii "n1")

end NodeHandler

end App

end RanGame
