import RanGame.Lib.PartialMap
import RanGame.Session.Delivery

/-!
# The session manager

`internal/session/manager.go` with the sessions it keeps: the three indexes by user, by connection
and by token, and any number of concurrent calls. Each lock section is one action, and a call is a
program counter between them. The manager knows a connection by its `ID`. A session is named by the
`Create` call that made it.
-/

namespace RanGame.Session

open Function

/-- `Config`, as far as the manager's own logic reads it. -/
structure Config where
  /-- How long an offline session is kept, in nanoseconds. -/
  gracePeriod : ℤ
  gracePeriod_pos : 0 < gracePeriod

/-- A grace period that is not positive becomes sixty seconds. -/
def Config.withDefaults (gracePeriod : ℤ) : Config :=
  if h : 0 < gracePeriod then ⟨gracePeriod, h⟩ else ⟨60 * 10 ^ 9, by decide⟩

/-- A session together with its connection session. -/
structure Sess (C : Type*) where
  uid : String := ""
  conn : Option C := none
  codec : UInt8 := 0
  token : String := ""
  st : State := .stateOffline
  /-- When it went offline; `0` for online. -/
  offlineAt : ℤ := 0
  /-- History: when it last went offline. -/
  since : ℤ := 0
  /-- History: the connections it has been bound to. -/
  past : List C := []
  deriving DecidableEq

namespace Sess

variable {C : Type*} (s : Sess C)

/-- `newSession`, and its first token. -/
def newSession (uid : String) (c : C) (codec : UInt8) (token : String) : Sess C :=
  { uid := uid, conn := some c, codec := codec, token := token, st := .stateOnline, past := [c] }

/-- First section of `bind`: the connection. -/
def bind (c : C) : Sess C := { s with conn := some c, past := c :: s.past }

/-- Second section of `bind`: codec and state. -/
def goOnline (codec : UInt8) : Sess C := { s with codec := codec, st := .stateOnline }

/-- End of `bind`. -/
def clearOffline : Sess C := { s with offlineAt := 0 }

/-- First section of `unbindIfConn`, once the connection has been found to be the expected one. -/
def unbind : Sess C := { s with conn := none }

/-- Second section of `unbindIfConn`. -/
def goOffline (now : ℤ) : Sess C :=
  if s.st = .stateOnline then { s with st := .stateOffline, offlineAt := now, since := now } else s

def markReleased : Sess C := { s with st := .stateReleased }

def offlineDuration (now : ℤ) : ℤ := if s.offlineAt = 0 then 0 else now - s.offlineAt

/-- What `Sweep` looks for. -/
def Expired (cfg : Config) (now : ℤ) : Prop :=
  s.st = .stateOffline ∧ cfg.gracePeriod ≤ s.offlineDuration now

instance (cfg : Config) (now : ℤ) : Decidable (s.Expired cfg now) :=
  inferInstanceAs (Decidable (_ ∧ _))

theorem goOffline_st_ne (now : ℤ) : (s.goOffline now).st ≠ .stateOnline := by
  unfold goOffline
  split
  · simp
  · assumption

theorem goOffline_eq (now : ℤ) : ∃ st offlineAt since,
    s.goOffline now = { s with st := st, offlineAt := offlineAt, since := since } := by
  unfold goOffline
  split
  · exact ⟨_, _, _, rfl⟩
  · exact ⟨s.st, s.offlineAt, s.since, rfl⟩

@[simp] theorem goOffline_conn (now : ℤ) : (s.goOffline now).conn = s.conn := by
  obtain ⟨_, _, _, h⟩ := s.goOffline_eq now
  rw [h]

@[simp] theorem goOffline_token (now : ℤ) : (s.goOffline now).token = s.token := by
  obtain ⟨_, _, _, h⟩ := s.goOffline_eq now
  rw [h]

@[simp] theorem goOffline_uid (now : ℤ) : (s.goOffline now).uid = s.uid := by
  obtain ⟨_, _, _, h⟩ := s.goOffline_eq now
  rw [h]

@[simp] theorem goOffline_past (now : ℤ) : (s.goOffline now).past = s.past := by
  obtain ⟨_, _, _, h⟩ := s.goOffline_eq now
  rw [h]

end Sess

/-- Why a session is destroyed: a login has replaced it, or a sweep has found it expired. -/
inductive Cause (n : ℕ)
  | replaced
  | swept (todo : List (Fin n))
  deriving DecidableEq

/-- A `Reconnect` that has rotated the token. -/
structure Rebind (n : ℕ) (C : Type*) where
  sess : Fin n
  token : String
  newToken : String
  conn : C
  codec : UInt8
  deriving DecidableEq

inductive Call (n : ℕ) (C : Type*)
  | notStarted
  /-- `Create` has registered its session and is to remove the old one from the indexes. -/
  | kicking (old : Fin n)
  /-- `Reconnect` has found a session and is about to rotate its token. -/
  | rotating (x : Fin n) (token : String) (c : C) (codec : UInt8)
  | binding (r : Rebind n C)
  | onlining (r : Rebind n C) (old : Option C)
  | clearing (r : Rebind n C) (old : Option C)
  | reindexing (r : Rebind n C) (old : Option C)
  | closingOld (r : Rebind n C) (old : Option C)
  | reconnected (r : Rebind n C) (old : Option C)
  | refused (token : String)
  /-- `MarkOfflineConn` for `c` has unbound `old` and is about to set the state. -/
  | offlining (x : Fin n) (c old : C)
  | dropping (x : Fin n) (c old : C)
  | leaving (x : Fin n) (c old : C)
  | left
  | sweeping (now : ℤ)
  /-- `Sweep` has candidates left; with none it has returned. -/
  | destroying (todo : List (Fin n))
  /-- `x` is out of the indexes: about to read its connection. -/
  | taking (x : Fin n) (why : Cause n)
  | releasing (x : Fin n) (conn : Option C) (why : Cause n)
  | closing (x : Fin n) (conn : Option C) (why : Cause n)
  | notifying (x : Fin n) (why : Cause n)
  | created
  deriving DecidableEq

/-- How a call goes on when a session has been destroyed. -/
def Cause.next {n : ℕ} {C : Type*} : Cause n → Call n C
  | .replaced => .created
  | .swept todo => .destroying todo

/-- The manager, its sessions and `n` calls. -/
structure Manager (n : ℕ) (C : Type*) where
  clock : ℤ
  sess : Fin n → Sess C
  byUID : PartialMap String (Fin n)
  byConn : PartialMap UInt64 (Fin n)
  byToken : PartialMap String (Fin n)
  calls : Fin n → Call n C
  closed : C → Bool
  /-- History: the values a token has had. A session without one has the empty string. -/
  generated : List String

inductive ManagerAct (n : ℕ) (C : Type*)
  | tick (d : ℕ)
  | create (i : Fin n) (uid : String) (c : C) (codec : UInt8) (token : String)
  | unindex (i : Fin n)
  | reconnect (i : Fin n) (token : String) (c : C) (codec : UInt8)
  | rotate (i : Fin n) (newToken : String)
  | bind (i : Fin n)
  | goOnline (i : Fin n)
  | clearOffline (i : Fin n)
  | reindex (i : Fin n)
  | closeOld (i : Fin n)
  | markOfflineConn (i x : Fin n) (c : C)
  | goOffline (i : Fin n)
  | dropConn (i : Fin n)
  | closeConn (i : Fin n)
  | sweep (i : Fin n)
  | examine (i : Fin n)
  | remove (i x : Fin n)
  | takeConn (i : Fin n)
  | release (i : Fin n)
  | close (i : Fin n)
  | notify (i : Fin n)
  deriving DecidableEq

namespace Manager

variable {n : ℕ} {C : Type*} (s : Manager n C)

@[simps] def setCall (i : Fin n) (k : Call n C) : Manager n C :=
  { s with calls := update s.calls i k }

@[simps] def setSess (x : Fin n) (r : Sess C) : Manager n C :=
  { s with sess := update s.sess x r }

/-- Is the session the one registered for its user? -/
def Registered (x : Fin n) : Prop := s.byUID (s.sess x).uid = some x

instance (x : Fin n) : Decidable (s.Registered x) := inferInstanceAs (Decidable (_ = _))

/-- What `Sweep` collects. The source ranges over a map, so the order is arbitrary. -/
def candidates (cfg : Config) (now : ℤ) : List (Fin n) :=
  (List.finRange n).filter fun x => s.Registered x ∧ (s.sess x).Expired cfg now

/-- `RotateToken`, once the old token has been found to be the current one. -/
@[simps] def rotateToken (x : Fin n) (newToken : String) : Manager n C :=
  { s with
    sess := update s.sess x { s.sess x with token := newToken }
    generated := newToken :: s.generated }

variable [DecidableEq C] (ID : C → UInt64)

@[simps] def closeConn (conn : Option C) : Manager n C :=
  { s with closed := match conn with
      | some c => update s.closed c true
      | none => s.closed }

/-- The connection index without the entry of a connection if it points to `x`. -/
def dropConn (conn : Option C) (x : Fin n) : PartialMap UInt64 (Fin n) :=
  match conn with
  | some c => s.byConn.eraseIf (ID c) x
  | none => s.byConn

/-- The section of `Create`, with the making of the session before it. -/
@[simps] def register (i : Fin n) (uid : String) (c : C) (codec : UInt8) (token : String) :
    Manager n C :=
  { s with
    sess := update s.sess i (.newSession uid c codec token)
    byUID := s.byUID.insert uid i
    byToken := s.byToken.insert token i
    byConn := s.byConn.insert (ID c) i
    generated := token :: s.generated }

/-- The section of `kickAndDestroy`. -/
@[simps] def unindex (x : Fin n) : Manager n C :=
  { s with
    byToken := if (s.sess x).token = "" then s.byToken else s.byToken.eraseIf (s.sess x).token x
    byConn := s.dropConn ID (s.sess x).conn x }

/-- The last section of `Reconnect`. -/
@[simps] def reindex (r : Rebind n C) (old : Option C) : Manager n C :=
  { s with
    byToken := (s.byToken.erase r.token).insert r.newToken r.sess
    byConn := (s.dropConn ID old r.sess).insert (ID r.conn) r.sess }

/-- The section of `removeFromMaps`, once the session has been found to be registered. -/
@[simps] def removeFromMaps (x : Fin n) : Manager n C :=
  { s with
    byUID := s.byUID.erase (s.sess x).uid
    byToken := if (s.sess x).token = "" then s.byToken else s.byToken.erase (s.sess x).token
    byConn := s.dropConn ID (s.sess x).conn x }

/-- `UnbindIfConn`. -/
def unbindStep (i x : Fin n) (c : C) : Option (Manager n C) :=
  if s.calls i = .notStarted then
    match (s.sess x).conn with
    | some old =>
      if ID old = ID c then
        some ((s.setSess x (s.sess x).unbind).setCall i (.offlining x c old))
      else some (s.setCall i .left)
    | none => some (s.setCall i .left)
  else none

/-- `destroy` for one of the candidates, up to `removeFromMaps`. -/
def removeStep (i x : Fin n) : Option (Manager n C) :=
  match s.calls i with
  | .destroying todo =>
    if x ∈ todo then
      if s.Registered x then
        some ((s.removeFromMaps ID x).setCall i (.taking x (.swept (todo.erase x))))
      else some (s.setCall i (.destroying (todo.erase x)))
    else none
  | _ => none

end Manager

namespace Manager

variable {n : ℕ} {C : Type*} [DecidableEq C]

def step (ID : C → UInt64) (cfg : Config) (s : Manager n C) : ManagerAct n C → Option (Manager n C)
  | .tick d => some { s with clock := s.clock + d }
  | .create i uid c codec token =>
    if s.calls i = .notStarted then
      some ((s.register ID i uid c codec token).setCall i (match s.byUID uid with
        | some old => .kicking old
        | none => .created))
    else none
  | .unindex i =>
    match s.calls i with
    | .kicking x => some ((s.unindex ID x).setCall i (.taking x .replaced))
    | _ => none
  | .reconnect i token c codec =>
    if s.calls i = .notStarted then
      some (s.setCall i (match s.byToken token with
        | some x => .rotating x token c codec
        | none => .refused token))
    else none
  | .rotate i newToken =>
    match s.calls i with
    | .rotating x token c codec =>
      if (s.sess x).token = token then
        some ((s.rotateToken x newToken).setCall i (.binding ⟨x, token, newToken, c, codec⟩))
      else some { s.setCall i (.refused token) with generated := newToken :: s.generated }
    | _ => none
  | .bind i =>
    match s.calls i with
    | .binding r =>
      some ((s.setSess r.sess ((s.sess r.sess).bind r.conn)).setCall i
        (.onlining r (s.sess r.sess).conn))
    | _ => none
  | .goOnline i =>
    match s.calls i with
    | .onlining r old =>
      some ((s.setSess r.sess ((s.sess r.sess).goOnline r.codec)).setCall i (.clearing r old))
    | _ => none
  | .clearOffline i =>
    match s.calls i with
    | .clearing r old =>
      some ((s.setSess r.sess (s.sess r.sess).clearOffline).setCall i (.reindexing r old))
    | _ => none
  | .reindex i =>
    match s.calls i with
    | .reindexing r old => some ((s.reindex ID r old).setCall i (.closingOld r old))
    | _ => none
  | .closeOld i =>
    match s.calls i with
    | .closingOld r old =>
      some ((s.closeConn (old.filter fun d => ID d ≠ ID r.conn)).setCall i (.reconnected r old))
    | _ => none
  | .markOfflineConn i x c => s.unbindStep ID i x c
  | .goOffline i =>
    match s.calls i with
    | .offlining x c old =>
      some ((s.setSess x ((s.sess x).goOffline s.clock)).setCall i (.dropping x c old))
    | _ => none
  | .dropConn i =>
    match s.calls i with
    | .dropping x c old =>
      some { s.setCall i (.leaving x c old) with byConn := s.byConn.eraseIf (ID c) x }
    | _ => none
  | .closeConn i =>
    match s.calls i with
    | .leaving _ _ old => some ((s.closeConn (some old)).setCall i .left)
    | _ => none
  | .sweep i => if s.calls i = .notStarted then some (s.setCall i (.sweeping s.clock)) else none
  | .examine i =>
    match s.calls i with
    | .sweeping now => some (s.setCall i (.destroying (s.candidates cfg now)))
    | _ => none
  | .remove i x => s.removeStep ID i x
  | .takeConn i =>
    match s.calls i with
    | .taking x why => some (s.setCall i (.releasing x (s.sess x).conn why))
    | _ => none
  | .release i =>
    match s.calls i with
    | .releasing x conn why =>
      some ((s.setSess x (s.sess x).markReleased).setCall i (.closing x conn why))
    | _ => none
  | .close i =>
    match s.calls i with
    | .closing x conn why => some ((s.closeConn conn).setCall i (.notifying x why))
    | _ => none
  | .notify i =>
    match s.calls i with
    | .notifying _ why => some (s.setCall i why.next)
    | _ => none

end Manager

/-- `NewManager`, at some time on the clock. -/
def newManager (n : ℕ) (C : Type*) (clock : ℤ) : Manager n C where
  clock := clock
  sess := fun _ => {}
  byUID := fun _ => none
  byConn := fun _ => none
  byToken := fun _ => none
  calls := fun _ => .notStarted
  closed := fun _ => false
  generated := [""]

end RanGame.Session
