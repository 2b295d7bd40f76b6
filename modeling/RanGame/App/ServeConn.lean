import RanGame.App.Extraction
import RanGame.Session.Pumps

/-!
# The goroutine that serves a connection

`ServeConn` of `internal/app/connector.go`, once for every connection, over the session manager. It
reads frames until a login or a reconnect succeeds, pumps messages until the connection ends, and
calls `MarkOfflineConn`. If the response of a handshake cannot be written, `handshake` goes on
reading and has no session to mark offline.
-/

namespace RanGame.App

open Function Machine Option Session Protocol
open Transport (Frame)
open Extraction (decodeLoginReq decodeReconnectReq)

section Manager

variable {n : ℕ} {C : Type} [DecidableEq C] {ID : C → UInt64} {cfg : Config} {m m' : Manager n C}
  {a : ManagerAct n C}

variable (hstep : m.step ID cfg a = some m')

include hstep

theorem conn_of_step {x : Fin n} {c : C} (hx : (m'.sess x).conn = some c) :
    (m.sess x).conn = some c ∨ (∃ uid codec token, a = .create x uid c codec token) ∨
      ∃ i r, a = .bind i ∧ m.calls i = .binding r ∧ r.sess = x ∧ r.conn = c := by
  cases Manager.happens_of_step hstep with
  | @create i uid d codec token | @replace i old uid d codec token =>
    rcases of_update (P := fun r : Session.Sess C => r.conn = some c) hx with ⟨rfl, h⟩ | ⟨-, h⟩
    · obtain rfl : d = c := some.inj h
      exact .inr (.inl ⟨uid, codec, token, rfl⟩)
    · exact .inl h
  | @bind i r hi =>
    rcases of_update (P := fun r : Session.Sess C => r.conn = some c) hx with ⟨rfl, h⟩ | ⟨-, h⟩
    · exact .inr (.inr ⟨i, r, rfl, hi, rfl, some.inj h⟩)
    · exact .inl h
  | unbind =>
    rcases of_update (P := fun r : Session.Sess C => r.conn = some c) hx with ⟨-, h⟩ | ⟨-, h⟩
    · cases h
    · exact .inl h
  | goOffline =>
    exact .inl ((apply_update_of_eq Sess.conn (Sess.goOffline_conn ..) x).symm.trans hx)
  | rotate | goOnline | clearOffline | release =>
    exact .inl ((apply_update_of_eq Sess.conn (by rfl) x).symm.trans hx)
  | _ => exact .inl hx

theorem carries_of_step {i : Fin n} {c : C} (hi : c ∈ (m'.calls i).carries) :
    c ∈ (m.calls i).carries ∨ ∃ token codec, a = .reconnect i token c codec := by
  cases Manager.happens_of_step hstep with
  | tick => exact .inl hi
  | @find j x token d codec hj =>
    rcases of_update (P := fun k : Call n C => c ∈ k.carries) hi with ⟨rfl, h⟩ | ⟨-, h⟩
    · obtain rfl : d = c := some.inj h
      exact .inr ⟨token, codec, rfl⟩
    · exact .inl h
  | @rotate j x token newToken d codec hj =>
    rcases of_update (P := fun k : Call n C => c ∈ k.carries) hi with ⟨rfl, h⟩ | ⟨-, h⟩
    · rw [hj]
      exact .inl h
    · exact .inl h
  | @notify j x why hj =>
    rcases of_update (P := fun k : Call n C => c ∈ k.carries) hi with ⟨-, h⟩ | ⟨-, h⟩
    · cases why <;> cases h
    · exact .inl h
  | _ =>
    rcases of_update (P := fun k : Call n C => c ∈ k.carries) hi with ⟨-, h⟩ | ⟨-, h⟩
    · cases h
    · exact .inl h

theorem replaced_of_step {i : Fin n} {p : Rebind n C × Option C} (hi : p ∈ (m.calls i).replaced) :
    p ∈ (m'.calls i).replaced := by
  have keep : ∀ {j : Fin n} {k : Call n C}, (∀ p, p ∈ (m.calls j).replaced → p ∈ k.replaced) →
        p ∈ (update m.calls j k i).replaced := by
    intro j k hk
    exact rel_update (fun k k' : Call n C => ∀ p, p ∈ k.replaced → p ∈ k'.replaced)
      (fun _ _ h => h) hk i p hi
  cases Manager.happens_of_step hstep with
  | tick => exact hi
  | goOnline hj | clearOffline hj | reindex hj | closeOld hj =>
    refine keep ?_
    rw [hj]
    exact fun _ h => h
  | create hj | replace hj | unindex hj | find hj | miss hj | rotate hj | stale hj | bind hj
  | unbind hj | leave hj | goOffline hj | dropConn hj | closeConn hj | sweep hj | examine hj
  | remove hj | skip hj | takeConn hj | release hj | close hj | notify hj =>
    refine keep fun p h => ?_
    rw [hj] at h
    cases h

end Manager

/-! ### Requests -/

/-- Why a login or a reconnect is refused before the manager is called. -/
inductive RequestError
  /-- `ErrFrameTooLong` -/
  | frameTooLong
  /-- `ErrUnknownMsg`: `codec not supported` -/
  | codecNotSupported
  /-- `ErrDecode`, with the text of the codec's error -/
  | decode
  /-- `ErrDecode`: `uid required` -/
  | uidRequired
  deriving DecidableEq, Repr

/-- `handleLogin`, up to `Create`: the uid, and the codec of the request. -/
def loginRequest (maxLoginBody : ℕ) (f : Frame) : Except RequestError (Bytes × Codec) :=
  if f.body.length > maxLoginBody then .error .frameTooLong
  else
    match codecOf f with
    | none => .error .codecNotSupported
    | some c =>
      match decodeLoginReq f with
      | none => .error .decode
      | some uid => if uid = [] then .error .uidRequired else .ok (uid, c)

/-- `handleReconnect`, up to `Reconnect`: the token and the codec. -/
def reconnectRequest (maxLoginBody : ℕ) (f : Frame) : Except RequestError (Bytes × Codec) :=
  if f.body.length > maxLoginBody then .error .frameTooLong
  else
    match codecOf f with
    | none => .error .codecNotSupported
    | some c =>
      match decodeReconnectReq f with
      | none => .error .decode
      | some token => .ok (token, c)

/-- A Go string as the manager's model has it: one character for every byte. -/
def text (b : Bytes) : String := String.ofList (b.map fun x => Char.ofNat x.toNat)

def msgLogin : UInt32 := 0x0010

def msgReconnect : UInt32 := 0x0011

/-! ### Goroutines and the manager -/

inductive Goroutine (n : ℕ)
  | handshaking
  /-- In `handleLogin`: call `i` of the manager is `Create`. -/
  | creating (i : Fin n)
  /-- In `handleReconnect`: call `i` of the manager is `Reconnect`. -/
  | reconnecting (i : Fin n)
  /-- About to encode and write the response for session `x`. -/
  | responding (x : Fin n)
  | pumping (x : Fin n)
  /-- Call `j` of the manager is `MarkOfflineConn`. -/
  | exiting (j : Fin n)
  | returned
  deriving DecidableEq

/-- The session manager and the goroutines of all connections. -/
structure Standalone (n : ℕ) (C : Type) where
  sessions : Manager n C
  serving : C → Goroutine n

inductive StandaloneAct (n : ℕ) (C : Type)
  /-- `handshake` reads a frame; `i` is the next call of the manager, with `token` for a new
  session. -/
  | read (c : C) (f : Frame) (i : Fin n) (token : String)
  | readError (c : C)
  | called (c : C)
  | respond (c : C) (ok : Bool)
  | pumpRead (c : C) (f : Frame)
  /-- The pump cannot read, and call `j` of the manager is `MarkOfflineConn`. -/
  | pumpError (c : C) (j : Fin n)
  | manager (a : ManagerAct n C)

namespace Standalone

variable {n : ℕ} {C : Type} [DecidableEq C] (ID : C → UInt64) (cfg : Config) (maxLoginBody : ℕ)
  (s : Standalone n C)

@[simps] def setGoroutine (c : C) (k : Goroutine n) : Standalone n C :=
  { s with serving := update s.serving c k }

/-- A goroutine has the manager take the first section of a call. -/
def call (a : ManagerAct n C) (c : C) (k : Goroutine n) : Option (Standalone n C) :=
  (s.sessions.step ID cfg a).map fun m => { s.setGoroutine c k with sessions := m }

/-- One round of `handshake`. What is no request, or is refused, leads to the next round. -/
def readStep (c : C) (f : Frame) (i : Fin n) (token : String) : Option (Standalone n C) :=
  match s.serving c with
  | .handshaking =>
    if f.msgID = msgLogin then
      match loginRequest maxLoginBody f with
      | .ok (uid, k) => s.call ID cfg (.create i (text uid) c k.type token) c (.creating i)
      | .error _ => some s
    else if f.msgID = msgReconnect then
      match reconnectRequest maxLoginBody f with
      | .ok (old, k) => s.call ID cfg (.reconnect i (text old) c k.type) c (.reconnecting i)
      | .error _ => some s
    else some s
  | _ => none

def calledStep (c : C) : Option (Standalone n C) :=
  match s.serving c with
  | .creating i =>
    match s.sessions.calls i with
    | .created => some (s.setGoroutine c (.responding i))
    | _ => none
  | .reconnecting i =>
    match s.sessions.calls i with
    | .reconnected r _ => some (s.setGoroutine c (.responding r.sess))
    | .refused _ => some (s.setGoroutine c .handshaking)
    | _ => none
  | .exiting j =>
    match s.sessions.calls j with
    | .left => some (s.setGoroutine c .returned)
    | _ => none
  | _ => none

/-- Calls of these come from the goroutines. -/
def internal : ManagerAct n C → Bool
  | .create .. | .reconnect .. | .markOfflineConn .. => false
  | _ => true

def step : StandaloneAct n C → Option (Standalone n C)
  | .read c f i token => s.readStep ID cfg maxLoginBody c f i token
  | .readError c =>
    match s.serving c with
    | .handshaking => some (s.setGoroutine c .returned)
    | _ => none
  | .called c => s.calledStep c
  | .respond c ok =>
    match s.serving c with
    -- if the response fails, `handshake` reports an error and reads on
    | .responding x => some (s.setGoroutine c (if ok then .pumping x else .handshaking))
    | _ => none
  | .pumpRead c _ =>
    match s.serving c with
    | .pumping _ => some s
    | _ => none
  | .pumpError c j =>
    match s.serving c with
    | .pumping x => s.call ID cfg (.markOfflineConn j x c) c (.exiting j)
    | _ => none
  | .manager a =>
    if internal a then
      (s.sessions.step ID cfg a).map fun m => { s with sessions := m }
    else none

end Standalone

/-- A server without sessions; every connection is yet to be served. -/
def newStandalone (n : ℕ) (C : Type) (clock : ℤ) : Standalone n C where
  sessions := newManager n C clock
  serving _ := .handshaking

/-! ### Who holds a session -/

namespace Standalone

variable {n : ℕ} {C : Type}

/-- The goroutine of `c` has bound `c` to session `x` and will mark it offline. -/
def Holds (s : Standalone n C) (c : C) (x : Fin n) : Prop :=
  match s.serving c with
  | .creating i => x = i
  | .reconnecting i => ∃ p ∈ (s.sessions.calls i).replaced, p.1.sess = x
  | .responding y | .pumping y => x = y
  | _ => False

/-- Who is bound to `c`, or going to be, is held by its goroutine. -/
structure Held (c : C) (s : Standalone n C) : Prop where
  bound : ∀ x, (s.sessions.sess x).conn = some c → s.Holds c x
  carried : ∀ i, c ∈ (s.sessions.calls i).carries → s.serving c = .reconnecting i

theorem held_newStandalone (c : C) (clock : ℤ) : (newStandalone n C clock).Held c where
  bound _ h := by cases h
  carried _ h := by cases h

variable {s s' : Standalone n C} {c : C}

/-- While the goroutine of `c` holds nothing, nobody is bound to `c`. -/
theorem Held.free (h : s.Held c) (hs : s.serving c = .handshaking) :
    (∀ x, (s.sessions.sess x).conn ≠ some c) ∧ ∀ i, c ∉ (s.sessions.calls i).carries := by
  constructor
  · intro x hx
    have hholds := h.bound x hx
    rw [Holds, hs] at hholds
    exact hholds
  · intro i hi
    have hcarried := h.carried i hi
    rw [hs] at hcarried
    cases hcarried

variable {a : ManagerAct n C} {d : C} {i : Fin n} {token : String}

theorem brings_of_internal (h : internal a = true) : a.brings = none := by
  cases a <;> first | rfl | cases h

variable [DecidableEq C] {ID : C → UInt64} {cfg : Config} {maxLoginBody : ℕ}

section

variable (h : s.Held c)

include h

theorem Held.of_ne (hd : d ≠ c) (k : Goroutine n) : (s.setGoroutine d k).Held c := by
  have hsame : (s.setGoroutine d k).serving c = s.serving c := by
    rw [setGoroutine_serving, update_of_ne hd.symm]
  refine ⟨fun x hx => ?_, fun i hi => hsame.trans (h.carried i hi)⟩
  rw [Holds, hsame]
  exact h.bound x hx

theorem Held.manager (ha : c ∉ a.brings) {m : Manager n C}
    (hstep : s.sessions.step ID cfg a = some m) :
    ({ s with sessions := m } : Standalone n C).Held c := by
  constructor
  · intro x hx
    rcases conn_of_step hstep hx with hx | ⟨uid, codec, token, rfl⟩ | ⟨i, r, rfl, hi, rfl, rfl⟩
    · have hholds := h.bound x hx
      rw [Holds] at hholds ⊢
      simp only
      cases hs : s.serving c with
      | reconnecting i =>
        rw [hs] at hholds
        obtain ⟨p, hp, hpx⟩ := hholds
        exact ⟨p, replaced_of_step hstep hp, hpx⟩
      | _ =>
        rw [hs] at hholds
        exact hholds
    · exact absurd rfl ha
    · -- the call that binds is the goroutine's own
      have hs : s.serving r.conn = .reconnecting i := h.carried i (by rw [hi]; rfl)
      rw [Holds]
      simp only [hs]
      cases Manager.happens_of_step hstep with
      | @bind i q hi' =>
        obtain rfl : r = q := Call.binding.inj (hi.symm.trans hi')
        exact ⟨(r, (s.sessions.sess r.sess).conn), by simp [Call.replaced], rfl⟩
  · intro i hi
    rcases carries_of_step hstep hi with hi | ⟨token, codec, rfl⟩
    · exact h.carried i hi
    · exact absurd rfl ha

theorem Held.move {k : Goroutine n} (hkeep : ∀ x, s.Holds c x → (s.setGoroutine c k).Holds c x)
    (hfree : ∀ i, s.serving c = .reconnecting i → (s.sessions.calls i).carries = none) :
    (s.setGoroutine c k).Held c := by
  refine ⟨fun x hx => hkeep x (h.bound x hx), fun i hi => ?_⟩
  have hnone := hfree i (h.carried i hi)
  rw [setGoroutine_sessions, hnone] at hi
  cases hi

theorem Held.create (hs : s.serving c = .handshaking) {uid : String} {codec : UInt8}
    (hstep : s.call ID cfg (.create i uid c codec token) c (.creating i) = some s') :
    s'.Held c := by
  obtain ⟨m, hm, rfl⟩ := map_eq_some_iff.mp hstep
  obtain ⟨hbound, hcarried⟩ := h.free hs
  constructor
  · intro x hx
    rcases conn_of_step hm hx with hx | ⟨_, _, _, ⟨⟩⟩ | ⟨_, _, ⟨⟩, _⟩
    · exact absurd hx (hbound x)
    · rw [Holds, setGoroutine_serving, update_self]
  · intro j hj
    rcases carries_of_step hm hj with hj | ⟨_, _, ⟨⟩⟩
    exact absurd hj (hcarried j)

theorem Held.reconnect (hs : s.serving c = .handshaking) {codec : UInt8}
    (hstep : s.call ID cfg (.reconnect i token c codec) c (.reconnecting i) = some s') :
    s'.Held c := by
  obtain ⟨m, hm, rfl⟩ := map_eq_some_iff.mp hstep
  obtain ⟨hbound, hcarried⟩ := h.free hs
  constructor
  · intro x hx
    rcases conn_of_step hm hx with hx | ⟨_, _, _, ⟨⟩⟩ | ⟨_, _, ⟨⟩, _⟩
    exact absurd hx (hbound x)
  · intro j hj
    rcases carries_of_step hm hj with hj | ⟨_, _, ⟨⟩⟩
    · exact absurd hj (hcarried j)
    · exact update_self ..

/-- The pump of `c` ends: the one session that may be bound to `c` is unbound. -/
theorem Held.pumpError {x : Fin n} (hs : s.serving c = .pumping x) {j : Fin n}
    (hstep : s.call ID cfg (.markOfflineConn j x c) c (.exiting j) = some s') : s'.Held c := by
  obtain ⟨m, hm, rfl⟩ := map_eq_some_iff.mp hstep
  have hown : ∀ y, (s.sessions.sess y).conn = some c → y = x := by
    intro y hy
    have hholds := h.bound y hy
    rwa [Holds, hs] at hholds
  constructor
  · intro y hy
    rcases conn_of_step hm hy with hold | ⟨_, _, _, ⟨⟩⟩ | ⟨_, _, ⟨⟩, _⟩
    obtain rfl := hown y hold
    cases Manager.happens_of_step hm with
    | unbind =>
      rw [Manager.setCall_sess, Manager.setSess_sess, update_self] at hy
      cases hy
    | leave hi hconn => exact absurd rfl (hconn c hold)
  · intro i hi
    rcases carries_of_step hm hi with hi | ⟨_, _, ⟨⟩⟩
    have hcarried := h.carried i hi
    rw [hs] at hcarried
    cases hcarried

theorem Held.call_of_ne (hd : d ≠ c) (ha : c ∉ a.brings) {k : Goroutine n}
    (hstep : s.call ID cfg a d k = some s') : s'.Held c := by
  obtain ⟨m, hm, rfl⟩ := map_eq_some_iff.mp hstep
  exact Held.manager (h.of_ne hd k) ha hm

theorem Held.readStep {f : Frame} (hstep : s.readStep ID cfg maxLoginBody d f i token = some s') :
    s'.Held c := by
  rw [Standalone.readStep] at hstep
  split at hstep
  next hs =>
    split at hstep
    · split at hstep
      · by_cases hd : d = c
        · subst hd
          exact h.create hs hstep
        · exact h.call_of_ne hd (by simpa [ManagerAct.brings] using hd) hstep
      · cases hstep
        exact h
    · split at hstep
      · split at hstep
        · by_cases hd : d = c
          · subst hd
            exact h.reconnect hs hstep
          · exact h.call_of_ne hd (by simpa [ManagerAct.brings] using hd) hstep
        · cases hstep
          exact h
      · cases hstep
        exact h
  · cases hstep

theorem Held.calledStep (hstep : s.calledStep c = some s') : s'.Held c := by
  rw [Standalone.calledStep] at hstep
  split at hstep
  next i hs =>
    split at hstep <;> cases hstep
    · refine h.move (fun x hx => ?_) (fun j hj => by rw [hs] at hj; cases hj)
      rw [Holds, hs] at hx
      rw [Holds, setGoroutine_serving, update_self]
      exact hx
  next i hs =>
    split at hstep <;> cases hstep
    next r old hi =>
      refine h.move (fun x hx => ?_) (fun j hj => ?_)
      · rw [Holds, hs] at hx
        obtain ⟨p, hp, rfl⟩ := hx
        rw [hi] at hp
        obtain rfl : (r, old) = p := some.inj hp
        rw [Holds, setGoroutine_serving, update_self]
      · obtain rfl : i = j := Goroutine.reconnecting.inj (hs.symm.trans hj)
        rw [hi]
        rfl
    next hi =>
      refine h.move (fun x hx => ?_) (fun j hj => ?_)
      · rw [Holds, hs] at hx
        obtain ⟨p, hp, -⟩ := hx
        rw [hi] at hp
        cases hp
      · obtain rfl : i = j := Goroutine.reconnecting.inj (hs.symm.trans hj)
        rw [hi]
        rfl
  next j hs =>
    split at hstep <;> cases hstep
    · refine h.move (fun x hx => ?_) (fun j hj => by rw [hs] at hj; cases hj)
      rw [Holds, hs] at hx
      exact hx.elim
  · cases hstep

/-- **One step**, which is not a response over `c` that fails. -/
theorem Held.step {a : StandaloneAct n C} (ha : a ≠ .respond c false)
    (hstep : s.step ID cfg maxLoginBody a = some s') : s'.Held c := by
  cases a with
  | read d f i token => exact h.readStep hstep
  | readError d =>
    simp only [Standalone.step] at hstep
    split at hstep <;> cases hstep
    next hs =>
      by_cases hd : d = c
      · subst hd
        refine h.move (fun x hx => ?_) (fun j hj => by rw [hs] at hj; cases hj)
        rw [Holds, hs] at hx
        exact hx.elim
      · exact h.of_ne hd _
  | called d =>
    by_cases hd : d = c
    · subst hd
      exact h.calledStep hstep
    · obtain ⟨k, rfl⟩ : ∃ k, s' = s.setGoroutine d k := by
        simp only [Standalone.step, Standalone.calledStep] at hstep
        split at hstep
        · split at hstep <;> cases hstep
          exact ⟨_, rfl⟩
        · split at hstep <;> cases hstep <;> exact ⟨_, rfl⟩
        · split at hstep <;> cases hstep
          exact ⟨_, rfl⟩
        · cases hstep
      exact h.of_ne hd k
  | respond d ok =>
    simp only [Standalone.step] at hstep
    split at hstep <;> cases hstep
    next x hs =>
      by_cases hd : d = c
      · subst hd
        obtain rfl : ok = true := by
          cases ok with
          | true => rfl
          | false => exact absurd rfl ha
        refine h.move (fun y hy => ?_) (fun j hj => by rw [hs] at hj; cases hj)
        rw [Holds, hs] at hy
        rw [Holds, setGoroutine_serving, update_self]
        exact hy
      · exact h.of_ne hd _
  | pumpRead d f =>
    simp only [Standalone.step] at hstep
    split at hstep <;> cases hstep
    · exact h
  | pumpError d j =>
    simp only [Standalone.step] at hstep
    split at hstep
    next x hs =>
      by_cases hd : d = c
      · subst hd
        exact h.pumpError hs hstep
      · exact h.call_of_ne hd (by simp [ManagerAct.brings]) hstep
    · cases hstep
  | manager a =>
    obtain ⟨hinternal, hstep⟩ := ite_none_right_eq_some.mp hstep
    obtain ⟨m, hm, rfl⟩ := map_eq_some_iff.mp hstep
    exact h.manager (by simp [brings_of_internal hinternal]) hm

end

/-- **A connection that is not served any more is bound to no session** that is online, if no
response to a login or a reconnect over it has failed. -/
theorem not_bound_of_returned {clock : ℤ} {acts : List (StandaloneAct n C)}
    (hrun : run (step ID cfg maxLoginBody) (newStandalone n C clock) acts = some s)
    (hresponse : ∀ a ∈ acts, a ≠ .respond c false) (hreturned : s.serving c = .returned)
    (x : Fin n) :
    ¬ ((s.sessions.sess x).st = .stateOnline ∧ (s.sessions.sess x).conn = some c) := by
  have halong : Along (step ID cfg maxLoginBody) (fun _ a => a ≠ .respond c false)
      (newStandalone n C clock) acts := along_of_forall_mem hresponse
  have h : s.Held c := invariant_of_run (fun _ _ _ h ha hstep => Held.step h ha hstep)
    (held_newStandalone c clock) halong hrun
  rintro ⟨-, hx⟩
  have hholds := h.bound x hx
  rw [Holds, hreturned] at hholds
  exact hholds

def loginFrame : Frame := Extraction.frameOf .json msgLogin Extraction.loginText

def servedActs : List (StandaloneAct 2 UInt64) :=
  [.read 1 loginFrame 0 "t0", .called 1, .respond 1 true, .pumpRead 1 loginFrame, .pumpError 1 1,
    .manager (.goOffline 1), .manager (.dropConn 1), .manager (.closeConn 1), .called 1]

theorem not_bound_of_returned_served : ∃ s,
    run (step id (Config.withDefaults 60) 4096) (newStandalone 2 UInt64 100) servedActs = some s ∧
      s.serving 1 = .returned ∧ (s.sessions.sess 0).uid = "alice" ∧
      ∀ x, ¬ ((s.sessions.sess x).st = .stateOnline ∧ (s.sessions.sess x).conn = some 1) := by
  obtain ⟨s, hrun, hreturned, huid⟩ := exists_of_run (step id (Config.withDefaults 60) 4096)
    (newStandalone 2 UInt64 100) servedActs
    (fun s => s.serving 1 = .returned ∧ (s.sessions.sess 0).uid = "alice") (by decide +kernel)
  refine ⟨s, hrun, hreturned, huid, fun x => not_bound_of_returned hrun ?_ hreturned x⟩
  simp [servedActs]

/-- Alice logs in, the response cannot be written, and the connection ends. -/
def brokenActs : List (StandaloneAct 2 UInt64) :=
  [.read 1 loginFrame 0 "t0", .called 1, .respond 1 false, .readError 1, .manager (.tick 1000000)]

/-- `ServeConn` has returned, and the session is online and bound, where no sweep finds it. -/
theorem stays_online : ∃ s,
    run (step id (Config.withDefaults 60) 4096) (newStandalone 2 UInt64 100) brokenActs = some s ∧
      s.serving 1 = .returned ∧ (s.sessions.sess 0).uid = "alice" ∧
      (s.sessions.sess 0).st = .stateOnline ∧ (s.sessions.sess 0).conn = some 1 ∧
      s.sessions.candidates (Config.withDefaults 60) s.sessions.clock = [] :=
  exists_of_run _ _ _ _ (by decide +kernel)

end Standalone

end RanGame.App
